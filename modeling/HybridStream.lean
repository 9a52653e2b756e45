import HybridStream.Hea.Correctness.DrainOffsets
import HybridStream.Hea.Correctness.Fanout
import HybridStream.Hea.Correctness.CpuPath
import HybridStream.Hea.Correctness.AtLeastOnce
import HybridStream.Hea.Correctness.SnapshotSignal
import HybridStream.Hea.Correctness.CleanHandoff
import HybridStream.Hea.Correctness.Hysteresis
import HybridStream.Hea.Correctness.EngineAtRest
import HybridStream.Hea.Correctness.HostedSet
import HybridStream.Hea.Correctness.Resumption
import HybridStream.Hea.Correctness.BatchDispatch
import HybridStream.Hea.Correctness.OutputRoutes
import HybridStream.Hea.Correctness.QueueDrain
import HybridStream.Hea.Correctness.AtomicRegistration
import HybridStream.Hea.Correctness.InlineRun
import HybridStream.Workloads.Correctness.StateTransfer
import HybridStream.Workloads.Correctness.Resume
import HybridStream.Workloads.Correctness.AnomalyReports
import HybridStream.Workloads.Correctness.WindowSchedule
import HybridStream.Workloads.Correctness.Welford
import HybridStream.Workloads.Correctness.Normalization
import HybridStream.Workloads.Correctness.SensorIsolation
import HybridStream.Workloads.Correctness.Incidents
import HybridStream.Workloads.Correctness.JoinWindow
import HybridStream.Workloads.Correctness.Counters
import HybridStream.Workloads.Correctness.Percentiles
import HybridStream.Workloads.Correctness.Headway
import HybridStream.Workloads.Correctness.Deployments
import HybridStream.Aode.Correctness.PctrSafety
import HybridStream.Aode.Correctness.SingleLeader
import HybridStream.Aode.Correctness.OverfullTier
import HybridStream.Aode.Correctness.PlacementTruth
import HybridStream.Aode.Correctness.Recalibration
import HybridStream.Aode.Correctness.MoveExecution
import HybridStream.Aode.Correctness.ObservedLatency
import HybridStream.Aode.Correctness.StaleSource
import HybridStream.Aode.Correctness.OneMigration
import HybridStream.Aode.Correctness.SnapshotKeys
import HybridStream.Aode.Correctness.Overflow
import HybridStream.Aode.Correctness.PlacementRestart
import HybridStream.Aode.Correctness.CacheStore
import HybridStream.Aode.Correctness.NoEnvy
import HybridStream.Aode.Correctness.OrderIndependence
import HybridStream.Aode.Correctness.LoadMonotone
import HybridStream.Aode.Correctness.DeadNode
import HybridStream.Aode.Correctness.TelemetryOrder
import HybridStream.Aode.Correctness.LeaseRelease
import HybridStream.Aode.Correctness.MigrationSteps
import HybridStream.Aode.Correctness.BlindController
import HybridStream.Connector.Correctness.SchemaFormats
import HybridStream.Connector.Correctness.NeverMirrored
import HybridStream.Connector.Correctness.RestoreRequest
import HybridStream.Connector.Correctness.JobTracking
import HybridStream.Connector.Correctness.StatMoments
import HybridStream.Connector.Correctness.PatternWindow
import HybridStream.Common.Correctness.TopologicalOrder
import HybridStream.Common.Correctness.SnapshotRoundTrip
import HybridStream.Common.Correctness.MalformedSnapshots
import HybridStream.Common.Correctness.SchemaAgreement
import HybridStream.Experiments.Correctness.SnapshotWindows
import HybridStream.Experiments.Correctness.EffectSize
import HybridStream.Experiments.Correctness.PairedRepetitions
import HybridStream.Experiments.Correctness.Campaign
import HybridStream.Experiments.Correctness.StoredResults
