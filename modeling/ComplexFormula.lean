import ComplexFormula.Main
import ComplexFormula.Request
import ComplexFormula.Text.ControlSequence
import ComplexFormula.Proofs.Decimal
import ComplexFormula.Proofs.Grammar
import ComplexFormula.Proofs.Grammar.Outcome
import ComplexFormula.Proofs.Grammar.Complete
import ComplexFormula.Proofs.Value
import ComplexFormula.Proofs.Grammar.Leaves
import ComplexFormula.Proofs.Evaluation
import ComplexFormula.Proofs.Scanning
import ComplexFormula.Proofs.Unknown
import ComplexFormula.Proofs.Dialogue
import ComplexFormula.Proofs.Command
import ComplexFormula.Proofs.Normal
import ComplexFormula.Proofs.Calculator
import ComplexFormula.Proofs.Literal.Grammar
import ComplexFormula.Proofs.Prompting
import ComplexFormula.Proofs.Float
import ComplexFormula.Proofs.Float.ZeroSign
import ComplexFormula.Proofs.SameWorth
import ComplexFormula.Proofs.Grammar.Limit
import ComplexFormula.Proofs.Grammar.Literals
import ComplexFormula.Proofs.Seams
import ComplexFormula.Proofs.Enclosed
import ComplexFormula.Proofs.ImpliedProducts
import ComplexFormula.Proofs.Respelling
import ComplexFormula.Proofs.Relevance
import ComplexFormula.Proofs.Grammar.Mirror
import ComplexFormula.Proofs.ExplicitProducts
import ComplexFormula.Proofs.Joined
import ComplexFormula.Proofs.Positional.Normal
import ComplexFormula.Proofs.Positional.Evaluator
import ComplexFormula.Proofs.Positional.Agreement
import ComplexFormula.Proofs.Positional.Limit
import ComplexFormula.Proofs.Nesting
import ComplexFormula.Proofs.Signs
import ComplexFormula.Proofs.Labels
import ComplexFormula.Proofs.Comparing
import ComplexFormula.Proofs.Fields
import ComplexFormula.Proofs.Session
import ComplexFormula.Proofs.SingleLetters
import ComplexFormula.Proofs.Decimal.Rounding
import ComplexFormula.Proofs.Float.Nearest
import ComplexFormula.Proofs.CanonicalForm
import ComplexFormula.Proofs.Marking
import ComplexFormula.Proofs.Positional.Names
import ComplexFormula.Proofs.Faults
import ComplexFormula.Proofs.Walks
import ComplexFormula.Proofs.Equality
import ComplexFormula.Proofs.Picture
import ComplexFormula.Proofs.Protocol
import ComplexFormula.Proofs.Positional.Progress
