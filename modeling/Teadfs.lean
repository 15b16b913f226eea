import Teadfs.Lib.FileContent
import Teadfs.Lib.Frame
import Teadfs.Lib.LittleEndian
import Teadfs.Protocol
import Teadfs.Kernel
import Teadfs.UserCom
import Teadfs.Mmap
import Teadfs.File
import Teadfs.Frames
import Teadfs.Lib.Simulation
import Teadfs.Client
import Teadfs.SizeChange
import Teadfs.Views
import Teadfs.DecryptedView
import Teadfs.UpcallOffsets
import Teadfs.SequentialReads
import Teadfs.Truncation
import Teadfs.RawView
import Teadfs.WriteLoss
import Teadfs.Mount
import Teadfs.VerdictEnforcement
import Teadfs.MsgQueue
import Teadfs.HandOff
import Teadfs.FailedUpcalls
import Teadfs.Session
import Teadfs.Openings
import Teadfs.LowerRefs
import Teadfs.ReportedSize
import Teadfs.CircularWait
import Teadfs.ThreadPool
import Teadfs.RequestMap
import Teadfs.Labelling
import Teadfs.WireFormat
import Teadfs.Coherence
import Teadfs.DirOps
import Teadfs.LinkCounts
import Teadfs.Bounds
import Teadfs.PageFill
import Teadfs.Reads
import Teadfs.FailedWrites
import Teadfs.SizeFailures
import Teadfs.Fsync
import Teadfs.Holes
import Teadfs.DirLocks
import Teadfs.Creations
import Teadfs.InodeCache
import Teadfs.LowerPaths
import Teadfs.Symlinks
import Teadfs.Ledger
import Teadfs.OffsetRange
import Teadfs.Lib.Traces
import Teadfs.Events
import Teadfs.Signals
import Teadfs.PoolTasks
import Teadfs.UpcallRuns
import Teadfs.Readdir
import Teadfs.SuperBlocks
import Teadfs.Lib.Progress
import Teadfs.RequestReturns
import Teadfs.Appends
import Teadfs.Receiver
import Teadfs.Intake
import Teadfs.Lib.Components
import Teadfs.PoolEvents
import Teadfs.PoolFlags
