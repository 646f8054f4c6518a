import BusinessCase.Decimal.Places
import BusinessCase.Error.Given
import BusinessCase.Service.Handlers
import BusinessCase.Simulation.GivenFlow
import BusinessCase.Value.Writer
import BusinessCase.Proofs.Dependency.Schedule
import BusinessCase.Proofs.Formula.NonNumeric
import BusinessCase.Proofs.Formula.Outcome
import BusinessCase.Proofs.Formula.Propagation
import BusinessCase.Proofs.Formula.RoundTrip
import BusinessCase.Proofs.Formula.Scan
import BusinessCase.Proofs.Formula.Operands
import BusinessCase.Proofs.Formula.Viability
import BusinessCase.Proofs.Validation.Replacement
import BusinessCase.Proofs.Validation.Soundness
import BusinessCase.Proofs.Sampling.Interior
import BusinessCase.Proofs.Sampling.Pert
import BusinessCase.Proofs.Simulation.Compile
import BusinessCase.Proofs.Simulation.Looks
import BusinessCase.Proofs.Simulation.Partition
import BusinessCase.Proofs.Simulation.Interleaving
import BusinessCase.Proofs.Simulation.Balance
import BusinessCase.Proofs.Simulation.DiscountRange
import BusinessCase.Proofs.Simulation.Discounting
import BusinessCase.Proofs.Simulation.Payback
import BusinessCase.Proofs.Service.Verdicts
import BusinessCase.Proofs.Statistics.Correlation
import BusinessCase.Proofs.Statistics.Quantile
import BusinessCase.Proofs.Statistics.Ranking
import BusinessCase.Proofs.Statistics.Rows
import BusinessCase.Proofs.Workbook.Membership
