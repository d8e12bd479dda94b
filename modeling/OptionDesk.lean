import OptionDesk.Engine.Action
import OptionDesk.Error.Message
import OptionDesk.Statistics.Ledger
import OptionDesk.Proofs.Exact
import OptionDesk.Proofs.Statistics
import OptionDesk.Proofs.Ledger
import OptionDesk.Proofs.Sampling
import OptionDesk.Proofs.Engine.Calculation
import OptionDesk.Proofs.Engine.Published
import OptionDesk.Proofs.Engine.History
import OptionDesk.Proofs.Engine.Atomicity
import OptionDesk.Proofs.Engine.Isolation
import OptionDesk.Proofs.Engine.Stable
import OptionDesk.Proofs.DayCount
import OptionDesk.Proofs.Views
import OptionDesk.Proofs.Interpolation
import OptionDesk.Proofs.Finite
import OptionDesk.Proofs.Binary64
import OptionDesk.Proofs.Curve.Factors
import OptionDesk.Proofs.Curve.Reanchoring
import OptionDesk.Proofs.Terms
import OptionDesk.Proofs.Volatility
import OptionDesk.Proofs.Formula.Readings
import OptionDesk.Proofs.Formula.Parity
import OptionDesk.Proofs.Engine.ForwardStart
import OptionDesk.Proofs.Engine.Sharing
import OptionDesk.Proofs.Sampling.Schedules
import OptionDesk.Proofs.Formula.Consistency
import OptionDesk.Proofs.Calendar
import OptionDesk.Proofs.Curve.Yields
import OptionDesk.Proofs.Volatility.Levels
import OptionDesk.Proofs.Volatility.Signs
import OptionDesk.Proofs.Volatility.Reanchoring
import OptionDesk.Proofs.Sampling.Paths
import OptionDesk.Proofs.Sampling.European
import OptionDesk.Proofs.Sampling.NoArbitrage
import OptionDesk.Proofs.Sampling.CommonPaths
import OptionDesk.Proofs.Formula.FlatMarket
import OptionDesk.Proofs.Formula.Simulation
import OptionDesk.Proofs.Formula.Density
import OptionDesk.Proofs.Curve.Flat
import OptionDesk.Proofs.Sensitivities
import OptionDesk.Proofs.Formula.Derivatives
import OptionDesk.Proofs.Engine.ForwardSensitivities
import OptionDesk.Proofs.Sampling.Splitting
import OptionDesk.Proofs.Engine.ResetSplit
import OptionDesk.Proofs.Engine.Failures
import OptionDesk.Proofs.Engine.Mapping
import OptionDesk.Proofs.Engine.Stacks
import OptionDesk.Proofs.Formula.MixedBases
import OptionDesk.Proofs.Engine.ForwardScaling
import OptionDesk.Proofs.Engine.Strikes
import OptionDesk.Proofs.Formula.Scaling
import OptionDesk.Proofs.Sampling.Scaling
import OptionDesk.Proofs.Formula.Bounds
import OptionDesk.Proofs.Curve.LogLinear
import OptionDesk.Proofs.Sampling.Tolerance
import OptionDesk.Proofs.Sampling.Counts
import OptionDesk.Proofs.Curve.ForwardRates
import OptionDesk.Proofs.Curve.FlatNodes
import OptionDesk.Proofs.Curve.ZeroRates
import OptionDesk.Proofs.Curve.Acceptance
import OptionDesk.Proofs.Calendar.YearFractions
import OptionDesk.Proofs.Sampling.Acceptance
import OptionDesk.Proofs.Interpolation.Sorted
import OptionDesk.Proofs.Volatility.Quotes
import OptionDesk.Proofs.Volatility.Queries
import OptionDesk.Proofs.Interpolation.TotalVariance
import OptionDesk.Proofs.Volatility.ForwardVariance
import OptionDesk.Proofs.Sampling.Batches
import OptionDesk.Proofs.Sampling.Streams
