import ScaleAdvisor.Main
import ScaleAdvisor.Proofs.Catalog.FinalTies
import ScaleAdvisor.Proofs.Catalog.Room
import ScaleAdvisor.Proofs.Catalog.ScoreOrder
import ScaleAdvisor.Proofs.Config.Durations
import ScaleAdvisor.Proofs.Config.TraceLogs
import ScaleAdvisor.Proofs.Packing.Bindings
import ScaleAdvisor.Proofs.Packing.Precedence
import ScaleAdvisor.Proofs.Packing.Repeats
import ScaleAdvisor.Proofs.Scheduling.Accounting
import ScaleAdvisor.Proofs.Scheduling.Causes
import ScaleAdvisor.Proofs.Scheduling.Wakeups
import ScaleAdvisor.Proofs.Search.Assembly
import ScaleAdvisor.Proofs.Search.Bounds
import ScaleAdvisor.Proofs.Search.Completeness
import ScaleAdvisor.Proofs.Search.Conservation
import ScaleAdvisor.Proofs.Search.Grouping
import ScaleAdvisor.Proofs.Search.Lifecycle
import ScaleAdvisor.Proofs.Search.Quotas
import ScaleAdvisor.Proofs.Search.Reordering
import ScaleAdvisor.Proofs.Search.Siblings
import ScaleAdvisor.Proofs.Search.Stream
import ScaleAdvisor.Proofs.Search.Sufficiency
import ScaleAdvisor.Proofs.Simulation.Results
import ScaleAdvisor.Proofs.View.Absence
import ScaleAdvisor.Proofs.View.Identity
import ScaleAdvisor.Proofs.View.Registering
import ScaleAdvisor.Proofs.View.Watching
import ScaleAdvisor.Proofs.Wire.RoundTrip
import ScaleAdvisor.Scheduling.Rehearsal
import ScaleAdvisor.Wire.Failure
