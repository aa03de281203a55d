import Muld.Library.Transition
import Muld.Library.Threads
import Muld.Library.WorkQueues
import Muld.Library.Content
import Muld.Library.Tilings
import Muld.Library.Trimming
import Muld.Library.LittleEndian
import Muld.Library.FileStreams
import Muld.Library.Readers
import Muld.Types
import Muld.JobImage
import Muld.ImageRoundTrip
import Muld.ImageUpdate
import Muld.UnversionedImages
import Muld.ImageFormats
import Muld.Library.ReadScripts
import Muld.BufferRequests
import Muld.FairTrimming
import Muld.JobTicks
import Muld.LawfulDouble
import Muld.Probes
import Muld.SeparateJobs
import Muld.Settling
import Muld.Contention
import Muld.Library.Precision
import Muld.ConnectionPlan
import Muld.Library.TokenBuckets
import Muld.RateLimit
import Muld.RateWindows
import Muld.Library.Mutexes
import Muld.SpeedMeter
import Muld.SpeedReports
import Muld.LostBytes
import Muld.Library.Scans
import Muld.DiskMutex
import Muld.StoreCounter
import Muld.UnsavedBytes
import Muld.DiskEvents
import Muld.ChunkInfo
import Muld.DownloadEngine
import Muld.Shared
import Muld.Downloader
import Muld.Calls
import Muld.Connections
import Muld.System
import Muld.WorkerSteps
import Muld.CallSteps
import Muld.SystemSteps
import Muld.Regions
import Muld.WorkerEffects
import Muld.CallEffects
import Muld.Scheduling
import Muld.Generations
import Muld.Orphans
import Muld.Counting
import Muld.Accounting
import Muld.Notifications
import Muld.EngineCalls
import Muld.ChunkStability
import Muld.StoredJob
import Muld.StoreHistory
import Muld.StoreFailures
import Muld.ResumePlan
import Muld.PlanReload
import Muld.ChunkLayout
import Muld.ChunkCounts
import Muld.Url
import Muld.Library.Occurrences
import Muld.UrlGrammar
import Muld.UrlRoundTrip
import Muld.Fetching
import Muld.Dispatcher
import Muld.Outcomes
import Muld.ManagerSteps
import Muld.ConnectionController
import Muld.Streaming
import Muld.ItemBounds
import Muld.Delivery
import Muld.OutputErasure
import Muld.ImageClaims
import Muld.Completion
import Muld.FinalProgress
import Muld.CompletesOnce
import Muld.Finishing
import Muld.Artifacts
import Muld.Cancellation
import Muld.Mirroring
import Muld.Attachment
import Muld.ErrorFlag
import Muld.Sessions
import Muld.Closing
import Muld.Commands
import Muld.Reentrancy
import Muld.Waiting
import Muld.CallbackLocks
import Muld.Runtime
import Muld.NewJobs
import Muld.JobRuns
import Muld.Tasks
import Muld.Serial
import Muld.Recovery
import Muld.ControlLoop
import Muld.Targets
import Muld.RangeRequests
import Muld.Advancing
import Muld.Stranding
import Muld.Resuming
import Muld.ChunkReports
