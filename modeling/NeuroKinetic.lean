import NeuroKinetic.Kernel
import NeuroKinetic.FailSafe
import NeuroKinetic.JointExcursion
import NeuroKinetic.LimitBreach
import NeuroKinetic.RowSatisfaction
import NeuroKinetic.WatchdogRuns
import NeuroKinetic.SystemRuns
import NeuroKinetic.TripRecovery
import NeuroKinetic.SpeedBound
import NeuroKinetic.LargeCommands
import NeuroKinetic.MarginReload
import NeuroKinetic.BoxProjection
import NeuroKinetic.MirrorSymmetry
import NeuroKinetic.HardwareCeiling
import NeuroKinetic.ObstacleOrder
import NeuroKinetic.ObstacleTightening
import NeuroKinetic.JointDecoupling
import NeuroKinetic.FilterErrors
import NeuroKinetic.InterventionFlag
import NeuroKinetic.FailSafePaths
import NeuroKinetic.RingBufferFifo
import NeuroKinetic.RingBufferAccounting
import NeuroKinetic.Library.OrderedCopy
import NeuroKinetic.CommandSeqlock
import NeuroKinetic.ConcurrentDispatch
import NeuroKinetic.OperatorTuning
import NeuroKinetic.TelemetrySeqlock
import NeuroKinetic.TelemetryFrames
import NeuroKinetic.TelemetryWorker
import NeuroKinetic.DeadMan
import NeuroKinetic.ShmDispatch
import NeuroKinetic.BlackBox
import NeuroKinetic.IncidentLog
import NeuroKinetic.ReportedRuns
import NeuroKinetic.DiagnosticHold
import NeuroKinetic.TrajectoryChunk
import NeuroKinetic.RejectedFrames
import NeuroKinetic.OverrideRecords
import NeuroKinetic.RingBufferExactness
import NeuroKinetic.Library.InterleavedReads
import NeuroKinetic.Exposition
import NeuroKinetic.HistogramExactness
import NeuroKinetic.ScrapeRuns
import NeuroKinetic.ScrapeConsistency
import NeuroKinetic.WorkOrders
import NeuroKinetic.LogLines
import NeuroKinetic.DrainedQueue
import NeuroKinetic.DrainedRuns
import NeuroKinetic.DrainedStop
import NeuroKinetic.AsyncLogger
import NeuroKinetic.DrainedWorker
import NeuroKinetic.TelemetryAccounting
import NeuroKinetic.Library.Binary32Order
import NeuroKinetic.PublishedFrames
import NeuroKinetic.ReadingWords
import NeuroKinetic.ShutdownMetrics
import NeuroKinetic.Library.RealFourier
import NeuroKinetic.Library.RoundingError
import NeuroKinetic.PhysicsTwin
import NeuroKinetic.Library.ConcurrentWriters
import NeuroKinetic.MetricsScrapes
import NeuroKinetic.Library.RecordImage
import NeuroKinetic.TelemetryImage
import NeuroKinetic.ByteSystem
import NeuroKinetic.ByteRuns
import NeuroKinetic.ReadingOrder
import NeuroKinetic.LatestRequest
import NeuroKinetic.FleetRuns
import NeuroKinetic.Library.JsonPrint
import NeuroKinetic.Library.HttpMessage
import NeuroKinetic.SafetyEvents
import NeuroKinetic.SilentActions
import NeuroKinetic.ExportedEvents
import NeuroKinetic.Library.Magnitudes
import NeuroKinetic.TaskRuns
import NeuroKinetic.Library.SignificantDigits
import NeuroKinetic.Library.PrometheusText
import NeuroKinetic.ScrapeText
import NeuroKinetic.HistogramText
