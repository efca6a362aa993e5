import QuantityCalculator.Main
import QuantityCalculator.Proofs.Evaluation.Division
import QuantityCalculator.Proofs.Evaluation.Partial
import QuantityCalculator.Proofs.Expression.Negation
import QuantityCalculator.Proofs.Line.Blanks
import QuantityCalculator.Proofs.Line.Continuation
import QuantityCalculator.Proofs.Line.Quantity
import QuantityCalculator.Proofs.Line.RoundTrip
import QuantityCalculator.Proofs.Line.Signs
import QuantityCalculator.Proofs.Measure.Power
import QuantityCalculator.Proofs.Number.Decimal
import QuantityCalculator.Proofs.Session.Assignment
import QuantityCalculator.Proofs.Session.Clearing
import QuantityCalculator.Proofs.Session.KnownTerms
import QuantityCalculator.Proofs.Session.Reached
import QuantityCalculator.Proofs.Session.Scripts
