import Metering.Aggregation.Worksheet
import Metering.Lifetime.Script
import Metering.Quantity.Reading
import Metering.Session.Basic
import Metering.Proofs.Lifetimes.Run
import Metering.Proofs.Accounts.Run
import Metering.Proofs.Deltas.Gaps
import Metering.Proofs.Passes.Contract
import Metering.Proofs.Monotonic.Run
import Metering.Proofs.Requests.Erasure
import Metering.Proofs.Shutdown.Protocol
import Metering.Proofs.Creations.Resolution
import Metering.Proofs.Parallel.Run
import Metering.Proofs.Filters.Run
import Metering.Proofs.Globs.Scan
import Metering.Proofs.Observations.Gauges
import Metering.Proofs.Observations.Membership
import Metering.Proofs.Observations.Sums
import Metering.Proofs.Scripts.Lifecycle
import Metering.Proofs.Histograms.Algebra
import Metering.Proofs.Histograms.Points
import Metering.Proofs.Exemplars.Run
import Metering.Proofs.Exemplars.Stretches
import Metering.Proofs.LastValues.Algebra
import Metering.Proofs.Attributes.Canonical
import Metering.Proofs.Attributes.Filtering
import Metering.Proofs.Attributes.Keys
import Metering.Proofs.Teardowns.Run
import Metering.Proofs.NaNs.Run
import Metering.Proofs.Observations.Arrivals
