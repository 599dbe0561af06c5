import Mathlib.Order.Basic
import JsonNav.Linker.Basic

/-! Trees, documents and references are decidably equal, so what a text is read as, and what is found
in it, can be checked by computing it. -/

namespace JsonNav

namespace Node

variable {σ ν : Type} [DecidableEq σ] [DecidableEq ν]

mutual

/-- Whether two trees are the same in every node.  `Node.equal` compares numbers by what they denote
instead, so that it takes the two zeros for one. -/
def same : Node σ ν → Node σ ν → Bool
  | object s ps, object t qs => s = t && sameAll ps qs
  | array s items, array t jtems => s = t && sameAll items jtems
  | property s k none, property t l none => s = t && same k l
  | property s k (some v), property t l (some w) => s = t && same k l && same v w
  | string s x, string t y => s = t && x = y
  | number s x, number t y => s = t && x = y
  | boolean s a, boolean t b => s = t && a = b
  | null s, null t => s = t
  | _, _ => false

def sameAll : List (Node σ ν) → List (Node σ ν) → Bool
  | [], [] => true
  | m :: ms, n :: ns => same m n && sameAll ms ns
  | _, _ => false

end

mutual

theorem same_iff : (m n : Node σ ν) → (same m n = true ↔ m = n)
  | object _ ps, n => by cases n <;> simp [same, sameAll_iff ps]
  | array _ items, n => by cases n <;> simp [same, sameAll_iff items]
  | property _ k none, n => by
    cases n with
    | property _ _ w => cases w <;> simp [same, same_iff k]
    | _ => simp [same]
  | property _ k (some v), n => by
    cases n with
    | property _ _ w => cases w <;> simp [same, same_iff k, same_iff v, and_assoc]
    | _ => simp [same]
  | string .., n => by cases n <;> simp [same]
  | number .., n => by cases n <;> simp [same]
  | boolean .., n => by cases n <;> simp [same]
  | null _, n => by cases n <;> simp [same]

theorem sameAll_iff : (ms ns : List (Node σ ν)) → (sameAll ms ns = true ↔ ms = ns)
  | [], ns => by cases ns <;> simp [sameAll]
  | m :: ms, ns => by cases ns <;> simp [sameAll, same_iff m, sameAll_iff ms]

end

instance : DecidableEq (Node σ ν) := fun m n => decidable_of_iff (same m n = true) (same_iff m n)

end Node

deriving instance DecidableEq for Source, Document, Place, Reference

end JsonNav
