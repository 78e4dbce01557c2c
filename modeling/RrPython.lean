import RrPython.Foundation.LittleEndian
import RrPython.Foundation.ByteParser
import RrPython.Foundation.ShortInput
import RrPython.Foundation.Runs
import RrPython.Foundation.Simulation
import RrPython.Foundation.Linearization
import RrPython.Foundation.Alternation
import RrPython.Foundation.ByteMemory
import RrPython.Foundation.Lock
import RrPython.Foundation.Outcome
import RrPython.Foundation.Stateful
import RrPython.Foundation.Relational
import RrPython.Foundation.BlockQueue
import RrPython.Foundation.Ledger
import RrPython.Foundation.LowestFree
import RrPython.Foundation.FittingPrefix
import RrPython.Foundation.PointPatch
import RrPython.Foundation.FlexibleBlock
import RrPython.Foundation.LoggedParser
import RrPython.Machine.Registers
import RrPython.Recorder.Records
import RrPython.Recorder.Dump
import RrPython.Recorder.Hooks
import RrPython.Recorder.Effects
import RrPython.Recorder.Dumper
import RrPython.Recorder.System
import RrPython.Recorder.AllocationSizes
import RrPython.Recorder.Ownership
import RrPython.Recorder.NullSafety
import RrPython.Recorder.Faithful
import RrPython.Recorder.Death
import RrPython.Recorder.Entry
import RrPython.Recorder.Module
import RrPython.Recorder.Delivery
import RrPython.Recorder.Reads
import RrPython.Recorder.ReadProc
import RrPython.Recorder.FifoIntegrity
import RrPython.Recorder.LostWakeUp
import RrPython.Recorder.Values
import RrPython.Recorder.Leaks
import RrPython.Recorder.Pointers
import RrPython.Recorder.Refinement
import RrPython.Recorder.Accounting
import RrPython.Recorder.Bystanders
import RrPython.Recorder.Seen
import RrPython.Recorder.Window
import RrPython.Recorder.Handover
import RrPython.Recorder.Progress
import RrPython.Recorder.Serialized
import RrPython.Replayer.SystemConsts
import RrPython.Replayer.SystemCall
import RrPython.Replayer.Loader
import RrPython.Replayer.Accepted
import RrPython.Replayer.Truncated
import RrPython.Replayer.LoadBound
import RrPython.Replayer.Tracee
import RrPython.Replayer.ShouldSimulate
import RrPython.Replayer.Sessions
import RrPython.Replayer.Creplayer
import RrPython.Replayer.Ptrace
import RrPython.Replayer.TraceeMemory
import RrPython.Replayer.Replayer
import RrPython.Replayer.Trapped
import RrPython.Replayer.Passage
import RrPython.Replayer.RegisterFrame
import RrPython.Replayer.Lockstep
import RrPython.Replayer.Stdout
import RrPython.Replayer.Virtual
import RrPython.Replayer.Sandbox
import RrPython.Replayer.Visits
import RrPython.Replayer.Results
import RrPython.Replayer.Descriptors
import RrPython.Replayer.Hermetic
import RrPython.Replayer.Diverging
import RrPython.Replayer.AddressSpace
import RrPython.Pipeline.LoadDump
import RrPython.Pipeline.Reexecution
import RrPython.Pipeline.Resume
import RrPython.Pipeline.Execution
import RrPython.Pipeline.Session
import RrPython.Pipeline.WrappedCall
import RrPython.Pipeline.RegionDiff
import RrPython.Pipeline.PartialCopies
import RrPython.Pipeline.DeterministicReplay
import RrPython.Pipeline.MappedReplay
import RrPython.Pipeline.Agreement
import RrPython.Pipeline.RecordedStream
import RrPython.Pager.Handshake
import RrPython.Pager.Service
import RrPython.Pipeline.SnapshotSession
