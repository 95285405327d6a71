import MultiArchUefi.Lib.Chain
import MultiArchUefi.Lib.Nesting
import MultiArchUefi.Lib.Memory
import MultiArchUefi.Lib.Stack
import MultiArchUefi.Lib.Run
import MultiArchUefi.Lib.Lookup
import MultiArchUefi.Lib.Ring
import MultiArchUefi.Lib.Counter
import MultiArchUefi.Lib.Handover
import MultiArchUefi.Lib.Rounding
import MultiArchUefi.Lib.Traced
import MultiArchUefi.Lib.Ownership
import MultiArchUefi.Lib.StraightLine
import MultiArchUefi.Lib.Layout
import MultiArchUefi.Basic
import MultiArchUefi.Interrupt
import MultiArchUefi.VirtualInterrupt
import MultiArchUefi.Image
import MultiArchUefi.Transfer
import MultiArchUefi.Thunk
import MultiArchUefi.EntryFrame
import MultiArchUefi.Context
import MultiArchUefi.LeakedContexts
import MultiArchUefi.PoppedPrefix
import MultiArchUefi.OrphanContexts
import MultiArchUefi.RunContext
import MultiArchUefi.System
import MultiArchUefi.Invariant
import MultiArchUefi.NativeStack
import MultiArchUefi.Moves
import MultiArchUefi.Resumption
import MultiArchUefi.OneStack
import MultiArchUefi.Accounting
import MultiArchUefi.CallStack
import MultiArchUefi.OrphanTransparency
import MultiArchUefi.LiveContexts
import MultiArchUefi.ImageExit
import MultiArchUefi.PrivateStack
import MultiArchUefi.StackAlignment
import MultiArchUefi.ArgumentRoundTrip
import MultiArchUefi.Interleaving
import MultiArchUefi.Jit
import MultiArchUefi.Orderly
import MultiArchUefi.Turns
import MultiArchUefi.LeakedRuns
import MultiArchUefi.EntryStack
import MultiArchUefi.Preemption
import MultiArchUefi.NestedStack
import MultiArchUefi.NestedRuns
import MultiArchUefi.ExitPeriod
import MultiArchUefi.RecoverPc
import MultiArchUefi.ExceptionCallback
import MultiArchUefi.ImageRegistry
import MultiArchUefi.StartedImages
import MultiArchUefi.ExitAdmission
import MultiArchUefi.Setup
import MultiArchUefi.ArchInit
import MultiArchUefi.ContextLifeCycle
import MultiArchUefi.RunFunc
import MultiArchUefi.RunNative
import MultiArchUefi.WrappedEvents
import MultiArchUefi.Dump
import MultiArchUefi.NullCalls
import MultiArchUefi.OrphanDetection
import MultiArchUefi.EntryArgs
import MultiArchUefi.EventTransparency
import MultiArchUefi.Exhaustion
import MultiArchUefi.ObjectAlloc
import MultiArchUefi.ObjectPool
import MultiArchUefi.PoolArena
import MultiArchUefi.PoolCallbacks
import MultiArchUefi.PoolPreemption
import MultiArchUefi.GetOpt
import MultiArchUefi.CommandLine
import MultiArchUefi.OptionRom
import MultiArchUefi.OptionRomFormat
import MultiArchUefi.LoadImage
import MultiArchUefi.LoadOpRom
import MultiArchUefi.SetCon
import MultiArchUefi.SetConPool
import MultiArchUefi.HostThunk
import MultiArchUefi.CachedST
import MultiArchUefi.DriverBinding
import MultiArchUefi.DebugState
