import DocStore.Main
import DocStore.Proofs.Expr.RoundTrip
import DocStore.Proofs.Store.Locking
import DocStore.Proofs.Store.Rollback
import DocStore.Proofs.Store.RowKeys
import DocStore.Proofs.Store.InPlace
import DocStore.Proofs.Store.Agreement
import DocStore.Proofs.Store.LockingRead
import DocStore.Proofs.Client.Updates
import DocStore.Proofs.Client.Identifiers
import DocStore.Proofs.Client.Replacing
import DocStore.Proofs.Wire.Request
import DocStore.Proofs.Binding
import DocStore.Proofs.Expr.Climbing
import DocStore.Proofs.Expr.WellFormed
import DocStore.Proofs.Expr.Candidates
import DocStore.Proofs.Expr.Meeting
import DocStore.Proofs.Issuing
import DocStore.Proofs.Update.Identifier
import DocStore.Proofs.Update.Setting
import DocStore.Proofs.Update.Patching
import DocStore.Proofs.Eval.Overlapping
import DocStore.Proofs.Eval.Containment
import DocStore.Proofs.Query.Sorting
import DocStore.Proofs.Query.Counting
import DocStore.Proofs.Query.Window
import DocStore.Proofs.Pattern.Like
import DocStore.Proofs.Eval.Summing
import DocStore.Proofs.Eval.Expansion
import DocStore.Proofs.Expr.ClauseText
import DocStore.Proofs.Expr.PathText
import DocStore.Proofs.Expr.Pointing
import DocStore.Proofs.Expr.Tiling
import DocStore.Proofs.Expr.Quotation
import DocStore.Proofs.Eval.Canonical
