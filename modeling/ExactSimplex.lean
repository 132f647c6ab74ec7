import ExactSimplex.Calculator
import ExactSimplex.Main
import ExactSimplex.Proofs.Batch
import ExactSimplex.Proofs.Calculation
import ExactSimplex.Proofs.Checked
import ExactSimplex.Proofs.Cycling
import ExactSimplex.Proofs.Doubles
import ExactSimplex.Proofs.Duality
import ExactSimplex.Proofs.Exchange
import ExactSimplex.Proofs.FirstPhase
import ExactSimplex.Proofs.Forms
import ExactSimplex.Proofs.Generated
import ExactSimplex.Proofs.Grid
import ExactSimplex.Proofs.GridPhases
import ExactSimplex.Proofs.GridStart
import ExactSimplex.Proofs.History
import ExactSimplex.Proofs.Literal
import ExactSimplex.Proofs.Mirrored
import ExactSimplex.Proofs.Period
import ExactSimplex.Proofs.PivotRule
import ExactSimplex.Proofs.Printed
import ExactSimplex.Proofs.Raises
import ExactSimplex.Proofs.Reduced
import ExactSimplex.Proofs.Rescaled
import ExactSimplex.Proofs.RoundTrip
import ExactSimplex.Proofs.Settled
import ExactSimplex.Proofs.Sheet
import ExactSimplex.Proofs.Standard
import ExactSimplex.Proofs.Trace
import ExactSimplex.Proofs.Turns
import ExactSimplex.Proofs.Unbounded
import ExactSimplex.Proofs.Words
import ExactSimplex.Value.Shown
