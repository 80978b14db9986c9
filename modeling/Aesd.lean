import Aesd.Lib.LineStream
import Aesd.Lib.Journal
import Aesd.Lib.CircularWalk
import Aesd.Lib.Segments
import Aesd.Lib.Reaches
import Aesd.Lib.Splits
import Aesd.Lib.Ledger
import Aesd.Lib.Chain
import Aesd.Lib.Machine
import Aesd.Lib.Referrers
import Aesd.Lib.Fairness
import Aesd.Lib.Slots
import Aesd.Driver.CircularBuffer
import Aesd.Driver.RingLaw
import Aesd.Driver.Lookup
import Aesd.Driver.Device
import Aesd.Driver.Invariant
import Aesd.Driver.Refinement
import Aesd.Driver.StreamLaw
import Aesd.Driver.WriteFailure
import Aesd.Driver.Position
import Aesd.Driver.ConcurrentWrites
import Aesd.Driver.Accounts
import Aesd.Driver.Ownership
import Aesd.Driver.ReadStream
import Aesd.Driver.Seeking
import Aesd.Driver.WriteOutcome
import Aesd.Driver.LineDevice
import Aesd.Driver.Interleaving
import Aesd.Driver.SectionOrder
import Aesd.Driver.CallMemory
import Aesd.Driver.PartialRaces
import Aesd.Driver.LoneCall
import Aesd.Driver.ModuleLife
import Aesd.Server.CString
import Aesd.Server.Connection
import Aesd.Server.WriteBuffer
import Aesd.Server.FileLock
import Aesd.Server.LineLoop
import Aesd.Server.Session
import Aesd.Server.CharDevice
import Aesd.Server.Section
import Aesd.Server.Receive
import Aesd.Server.Readiness
import Aesd.Server.Segmentation
import Aesd.Server.SeekCommand
import Aesd.Server.World
import Aesd.Server.ClientLines
import Aesd.Server.ChunkLines
import Aesd.Server.Responses
import Aesd.Server.ResponseContract
import Aesd.Server.Reception
import Aesd.Server.CommandLine
import Aesd.Server.RegularFile
import Aesd.Server.Timer
import Aesd.Server.FileMode
import Aesd.Server.Shutdown
import Aesd.Server.Reaping
import Aesd.Server.ShutdownProgress
import Aesd.Server.NodeLife
import Aesd.Server.FairSchedules
import Aesd.Server.LostLock
import Aesd.Server.Options
import Aesd.Server.Launch
import Aesd.Server.Descriptors
import Aesd.Server.Service
import Aesd.Server.FilePath
