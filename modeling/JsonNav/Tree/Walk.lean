import JsonNav.Tree.Node

/-! Walks over a tree in pre-order, a node before the nodes below it.  `preorder` lists the nodes,
and `walk` shows them one by one to a visitor that may end the walk. -/

namespace JsonNav.Node

variable {σ ν τ : Type}

mutual

/-- The nodes of a tree in pre-order. -/
def preorder : Node σ ν → List (Node σ ν)
  | object s ps => object s ps :: preorderAll ps
  | array s items => array s items :: preorderAll items
  | property s k none => property s k none :: preorder k
  | property s k (some v) => property s k (some v) :: (preorder k ++ preorder v)
  | string s x => [string s x]
  | number s x => [number s x]
  | boolean s b => [boolean s b]
  | null s => [null s]

def preorderAll : List (Node σ ν) → List (Node σ ν)
  | [] => []
  | n :: ns => preorder n ++ preorderAll ns

end

mutual

def size : Node σ ν → Nat
  | object _ ps => 1 + sizeAll ps
  | array _ items => 1 + sizeAll items
  | property _ k none => 1 + size k
  | property _ k (some v) => 1 + size k + size v
  | string .. | number .. | boolean .. | null .. => 1

def sizeAll : List (Node σ ν) → Nat
  | [] => 0
  | n :: ns => size n + sizeAll ns

end

/-- What a visitor says of a node: whether the walk goes on, and the visitor's next state. -/
abbrev Visitor (σ ν τ : Type) := τ → Node σ ν → Bool × τ

mutual

/-- Shows the nodes of a tree in pre-order to a visitor, up to the first node that it refuses.  The
result says whether the walk was completed, and has the visitor's last state. -/
def walk (f : Visitor σ ν τ) (t : τ) : Node σ ν → Bool × τ
  | object s ps =>
    match f t (object s ps) with
    | (true, t) => walkAll f t ps
    | (false, t) => (false, t)
  | array s items =>
    match f t (array s items) with
    | (true, t) => walkAll f t items
    | (false, t) => (false, t)
  | property s k none =>
    match f t (property s k none) with
    | (true, t) => walk f t k
    | (false, t) => (false, t)
  | property s k (some v) =>
    match f t (property s k (some v)) with
    | (true, t) =>
      match walk f t k with
      | (true, t) => walk f t v
      | (false, t) => (false, t)
    | (false, t) => (false, t)
  | string s x => f t (string s x)
  | number s x => f t (number s x)
  | boolean s b => f t (boolean s b)
  | null s => f t (null s)

def walkAll (f : Visitor σ ν τ) (t : τ) : List (Node σ ν) → Bool × τ
  | [] => (true, t)
  | n :: ns =>
    match walk f t n with
    | (true, t) => walkAll f t ns
    | (false, t) => (false, t)

end

mutual

theorem length_preorder : (n : Node σ ν) → n.preorder.length = n.size
  | object _ ps => by simp [preorder, size, length_preorderAll ps, Nat.add_comm]
  | array _ items => by simp [preorder, size, length_preorderAll items, Nat.add_comm]
  | property _ k none => by simp [preorder, size, length_preorder k, Nat.add_comm]
  | property _ k (some v) => by
    simp [preorder, size, length_preorder k, length_preorder v]; omega
  | string .. | number .. | boolean .. | null .. => rfl

theorem length_preorderAll : (ns : List (Node σ ν)) → (preorderAll ns).length = sizeAll ns
  | [] => rfl
  | n :: ns => by simp [preorderAll, sizeAll, length_preorder n, length_preorderAll ns]

end

theorem preorderAll_eq_flatMap (ns : List (Node σ ν)) : preorderAll ns = ns.flatMap preorder := by
  induction ns with
  | nil => rfl
  | cons n ns ih => simp [preorderAll, ih]

theorem preorder_eq (n : Node σ ν) : n.preorder = n :: n.children.flatMap preorder := by
  cases n with
  | object s ps => simp [preorder, children, preorderAll_eq_flatMap]
  | array s items => simp [preorder, children, preorderAll_eq_flatMap]
  | property s k v => cases v <;> simp [preorder, children]
  | _ => rfl

end JsonNav.Node
