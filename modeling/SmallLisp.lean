import SmallLisp.Main
import SmallLisp.Store.Describe
import SmallLisp.Proofs.Builtin.Arithmetic
import SmallLisp.Proofs.Value.Canonical
import SmallLisp.Proofs.Token.Layout
import SmallLisp.Proofs.Eval.Call
import SmallLisp.Proofs.Eval.Scoping
import SmallLisp.Proofs.Eval.Unmentioned
import SmallLisp.Proofs.Session.Legible
import SmallLisp.Proofs.Session.Loops
import SmallLisp.Proofs.Program
import SmallLisp.Proofs.Builtin.Promotion
import SmallLisp.Proofs.Token.LineBreak
import SmallLisp.Proofs.Eval.Substitution
import SmallLisp.Proofs.Session.Nesting
import SmallLisp.Proofs.Eval.Shape
import SmallLisp.Proofs.Form.Resume
import SmallLisp.Proofs.Form.Literal
import SmallLisp.Proofs.Builtin.Ordering
import SmallLisp.Proofs.Store.History
import SmallLisp.Proofs.Form.Strings
