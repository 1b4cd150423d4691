import AlloyStack.Library.Transition
import AlloyStack.Library.Rust
import AlloyStack.Visor.IsolationTable
import AlloyStack.Visor.ConcurrentCreation
import AlloyStack.AsStd.LibosSwitch
import AlloyStack.Visor.PkeyAllocation
import AlloyStack.Visor.ModuleCache
import AlloyStack.Visor.WorkflowOrder
import AlloyStack.Library.Blocks
import AlloyStack.Mm.ServiceHeap
import AlloyStack.Visor.WorkflowVerdict
import AlloyStack.Fdtab.Apis
import AlloyStack.Fdtab.FileMap
import AlloyStack.Fatfs.FileList
import AlloyStack.Library.Ownership
import AlloyStack.Fdtab.FatfsHandles
import AlloyStack.Mm.FaasBuffer
import AlloyStack.MmapFileBackend.Backend
import AlloyStack.MmapFileBackend.Handshake
import AlloyStack.Mm.BufferPublication
import AlloyStack.MmapFileBackend.Lifecycle
import AlloyStack.MmapFileBackend.PageFault
import AlloyStack.Mm.BufferReclamation
import AlloyStack.Socket.Receive
import AlloyStack.Socket.Apis
import AlloyStack.Socket.Descriptors
import AlloyStack.Fatfs.Volume
import AlloyStack.AsStd.File
import AlloyStack.AsStd.FileBuffer
import AlloyStack.AsStd.BufferEquivalence
import AlloyStack.Sfsfdtab.Apis
import AlloyStack.Sfsfdtab.Agreement
import AlloyStack.Ext4fdtab.RamDisk
import AlloyStack.Library.Text
import AlloyStack.User.ParallelSort
import AlloyStack.User.ParallelSortOutcome
import AlloyStack.User.WordCount
import AlloyStack.User.CountText
import AlloyStack.User.WasmWordCount
import AlloyStack.Library.LittleEndian
import AlloyStack.Wasi.Imports
import AlloyStack.Wasi.Readdir
import AlloyStack.Wasi.Frame
import AlloyStack.Library.Vectored
import AlloyStack.Wasi.Vectored
import AlloyStack.Wasi.DataBuffer
import AlloyStack.Wasi.Addresses
import AlloyStack.Sfsfdtab.Device
import AlloyStack.Sfsfdtab.ImgToSfs
import AlloyStack.Library.DirectoryTree
import AlloyStack.Sfsfdtab.Init
import AlloyStack.Sfsfdtab.InitKept
import AlloyStack.Library.PathText
import AlloyStack.Visor.IsolationConfig
import AlloyStack.Library.Binary32
import AlloyStack.Visor.Metric
import AlloyStack.Visor.MetricSound
import AlloyStack.Visor.FunctionArgs
import AlloyStack.Visor.FunctionReturn
import AlloyStack.Library.WordsText
import AlloyStack.Visor.MemoryMaps
import AlloyStack.Library.LockProgram
import AlloyStack.Rcore.Apis
import AlloyStack.Ext4fdtab.Apis
import AlloyStack.Library.CounterTable
import AlloyStack.Rcore.LockDiscipline
import AlloyStack.Rcore.Descriptors
import AlloyStack.Library.LockPhases
import AlloyStack.Socket.Calls
import AlloyStack.Socket.Device
import AlloyStack.Fdtab.Blocking
import AlloyStack.Library.Pairing
import AlloyStack.Visor.ServiceMetric
import AlloyStack.AsStdProcMacro.DeriveVerify
import AlloyStack.Fatfs.Streams
import AlloyStack.AsStd.Io
import AlloyStack.Wasi.Append
import AlloyStack.Socket.Send
import AlloyStack.Mm.Mmap
import AlloyStack.Socket.Leftovers
import AlloyStack.AsStd.Mmap
import AlloyStack.Wasi.MissingSlot
import AlloyStack.Ext4fdtab.Device
import AlloyStack.Ext4fdtab.BlockBounds
import AlloyStack.Ext4fdtab.StatSize
import AlloyStack.Rcore.Rename
import AlloyStack.Library.TreeCopy
import AlloyStack.Rcore.ImgToRamfs
import AlloyStack.Wasi.FileAttributes
import AlloyStack.Wasi.PathTable
import AlloyStack.Wasi.Arguments
import AlloyStack.User.SortingSteps
import AlloyStack.Visor.PageRounding
import AlloyStack.AsStd.HostCalls
import AlloyStack.Visor.LinkNamespaces
import AlloyStack.User.MapperBuilds
import AlloyStack.User.SortData
import AlloyStack.User.NumberText
import AlloyStack.User.WasmSplitter
import AlloyStack.User.WasmHeap
import AlloyStack.User.WasmMerger
import AlloyStack.Visor.HostCallCache
import AlloyStack.Library.LockOrder
import AlloyStack.Library.X86
import AlloyStack.Library.Buckets
import AlloyStack.Visor.HostCallLocks
import AlloyStack.User.WasmParallelSort
import AlloyStack.User.WasmParallelSortStages
import AlloyStack.Fatfs.FileStore
import AlloyStack.Visor.Preload
import AlloyStack.Wasi.Guests
import AlloyStack.Wasi.GuestsApart
import AlloyStack.Visor.Trampoline
import AlloyStack.AsStd.Handles
import AlloyStack.AsStd.SocketAddrs
