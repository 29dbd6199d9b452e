import Reckoner.Main
import Reckoner.Operand
import Reckoner.Proofs.Expr.Refusal
import Reckoner.Proofs.Expr.Respacing
import Reckoner.Proofs.Expr.Soundness
import Reckoner.Proofs.Session.History
import Reckoner.Proofs.Token.Coverage
import Reckoner.Proofs.Value.Climbing
import Reckoner.Proofs.Value.Differences
import Reckoner.Proofs.Value.Division
import Reckoner.Proofs.Value.Sorted
import Reckoner.Proofs.Expr.Inlining
import Reckoner.Proofs.Double.Integral
import Reckoner.Proofs.Value.Combining
import Reckoner.Proofs.Value.Range
import Reckoner.Proofs.Token.Digits
import Reckoner.Proofs.Value.Literals
import Reckoner.Proofs.Session.Safety
import Reckoner.Proofs.Format.Layout
import Reckoner.Proofs.Numeral.Radix
import Reckoner.Proofs.Token.Numerals
import Reckoner.Proofs.Value.Negation
import Reckoner.Proofs.Session.Retyping
import Reckoner.Proofs.Value.Hashing
import Reckoner.Proofs.Session.Annotating
import Reckoner.Proofs.Numeral.Real
import Reckoner.Proofs.Token.Shapes
import Reckoner.Proofs.Expr.Numbers
import Reckoner.Proofs.Value.Matching
import Reckoner.Proofs.Value.Powers
import Reckoner.Proofs.Double.Quotient
import Reckoner.Proofs.Value.Flooring
import Reckoner.Proofs.Session.Dialogue
import Reckoner.Proofs.Value.Commuting
import Reckoner.Proofs.Value.IntegersOnly
import Reckoner.Proofs.Value.Patterns
import Reckoner.Proofs.Value.Shifting
import Reckoner.Proofs.Value.Rotating
import Reckoner.Proofs.Value.Bitwise
import Reckoner.Proofs.Value.Accepting
import Reckoner.Proofs.Format.Annotations
import Reckoner.Proofs.Double.Writing
import Reckoner.Proofs.Format.Rendering
import Reckoner.Proofs.Value.Remainders
import Reckoner.Proofs.Value.Roundings
import Reckoner.Proofs.Text.Spans
import Reckoner.Proofs.Token.Longest
import Reckoner.Proofs.Token.Places
import Reckoner.Proofs.Value.Retrying
import Reckoner.Proofs.Session.Pointing
