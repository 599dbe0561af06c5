import JsonNav.Link.Encoding
import JsonNav.Linker.Fetched
import JsonNav.Store
import JsonNav.Tree.Equality
import JsonNav.Url.Resolver
import JsonNav.Proofs.Lists
import JsonNav.Proofs.Number.Scan
import JsonNav.Proofs.Text.Spelling
import JsonNav.Proofs.Tree.Grammar
import JsonNav.Proofs.Tree.Cursor
import JsonNav.Proofs.Tree.Run
import JsonNav.Proofs.Tree.Completeness
import JsonNav.Proofs.Tree.Order
import JsonNav.Proofs.Tree.Parse
import JsonNav.Proofs.Tree.Moved
import JsonNav.Proofs.Tree.Insertion
import JsonNav.Proofs.Tree.Extension
import JsonNav.Proofs.Tree.Truncation
import JsonNav.Proofs.Fetch.Pool
import JsonNav.Proofs.Text.Position
import JsonNav.Proofs.Linker.Fetched
import JsonNav.Proofs.Linker.Ranges
import JsonNav.Proofs.Linker.Pipeline
import JsonNav.Proofs.Text.Order
import JsonNav.Proofs.Pointer.Descent
import JsonNav.Proofs.Pointer.Follow
import JsonNav.Proofs.Tree.Walk
import JsonNav.Proofs.Tree.Slice
import JsonNav.Proofs.Tree.Nesting
import JsonNav.Proofs.Tree.Due
import JsonNav.Proofs.Tree.Mistake
import JsonNav.Proofs.Linker.Accounts
import JsonNav.Proofs.Linker.FetchLimit
import JsonNav.Proofs.Linker.Coverage
import JsonNav.Proofs.Linker.Inside
import JsonNav.Proofs.Tree.WellFormed
import JsonNav.Proofs.Tree.Outline
import JsonNav.Proofs.Linker.Reformatting
import JsonNav.Proofs.Link.Locator
import JsonNav.Proofs.Data.Parse
import JsonNav.Proofs.Data.Record
import JsonNav.Proofs.Data.Written
import JsonNav.Proofs.Link.Encoding
import JsonNav.Proofs.Linker.Agreement
import JsonNav.Proofs.Tree.Quotation
import JsonNav.Proofs.Pointer.Escaping
import JsonNav.Proofs.Store.History
import JsonNav.Proofs.Text.Checked
import JsonNav.Proofs.Linker.Addresses
import JsonNav.Proofs.Tree.Progress
import JsonNav.Proofs.Pointer.Index
