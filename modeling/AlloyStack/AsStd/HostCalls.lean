import Mathlib.Logic.Function.Basic

/-! The host calls: the symbol a call is exported under, the service that exports it, and the
table of a library in which it keeps the addresses it has looked up. -/
namespace AlloyStack.AsStd

inductive CommonHostCall where
  | metric | fsImage | spawnFaultThread | write | read | open | close | lseek | stat | readDir
  | connect | socket | bind | accept | stdout | fatfsOpen | fatfsWrite | fatfsRead | fatfsClose
  | fatfsSeek | fatfsStat | smoltcpAddrInfo | smoltcpConnect | smoltcpSend | smoltcpRecv
  | smoltcpBind | smoltcpAccept | smoltcpClose | bufferAlloc | accessBuffer | bufferDealloc | mmap
  | munmap | mprotect | registerFileBackend | unregisterFileBackend | filePageFaultHandler
  | getTime | nanoSleep | sigAction
  deriving DecidableEq, Repr

inductive HostCallID where
  | common (call : CommonHostCall)
  | custom (name : String)
  deriving DecidableEq, Repr

namespace CommonHostCall

/-- The derived `Display`, which is the name of the symbol. -/
def toString : CommonHostCall → String
  | .metric => "metric"
  | .fsImage => "fs_image"
  | .spawnFaultThread => "spawn_fault_thread"
  | .write => "write"
  | .read => "read"
  | .open => "open"
  | .close => "close"
  | .lseek => "lseek"
  | .stat => "stat"
  | .readDir => "readdir"
  | .connect => "connect"
  | .socket => "socket"
  | .bind => "bind"
  | .accept => "accept"
  | .stdout => "host_stdout"
  | .fatfsOpen => "fatfs_open"
  | .fatfsWrite => "fatfs_write"
  | .fatfsRead => "fatfs_read"
  | .fatfsClose => "fatfs_close"
  | .fatfsSeek => "fatfs_seek"
  | .fatfsStat => "fatfs_stat"
  | .smoltcpAddrInfo => "addrinfo"
  | .smoltcpConnect => "smol_connect"
  | .smoltcpSend => "smol_send"
  | .smoltcpRecv => "smol_recv"
  | .smoltcpBind => "smol_bind"
  | .smoltcpAccept => "smol_accept"
  | .smoltcpClose => "smol_close"
  | .bufferAlloc => "buffer_alloc"
  | .accessBuffer => "access_buffer"
  | .bufferDealloc => "buffer_dealloc"
  | .mmap => "libos_mmap"
  | .munmap => "libos_munmap"
  | .mprotect => "libos_mprotect"
  | .registerFileBackend => "register_file_backend"
  | .unregisterFileBackend => "unregister_file_backend"
  | .filePageFaultHandler => "file_page_fault_handler"
  | .getTime => "get_time"
  | .nanoSleep => "host_nanosleep"
  | .sigAction => "libos_sigaction"

/-- The service of `HostCallID::belong_to`. The visor answers the calls with an empty one. -/
def belongTo : CommonHostCall → String
  | .metric | .fsImage | .spawnFaultThread => ""
  | .write | .open | .read | .close | .lseek | .stat | .readDir | .connect | .socket | .bind
  | .accept => "fdtab"
  | .stdout => "stdio"
  | .fatfsOpen | .fatfsWrite | .fatfsRead | .fatfsClose | .fatfsSeek | .fatfsStat => "fatfs"
  | .smoltcpAddrInfo | .smoltcpConnect | .smoltcpSend | .smoltcpRecv | .smoltcpBind
  | .smoltcpAccept | .smoltcpClose => "socket"
  | .bufferAlloc | .accessBuffer | .bufferDealloc | .mmap | .munmap | .mprotect => "mm"
  | .registerFileBackend | .filePageFaultHandler | .unregisterFileBackend => "mmap_file_backend"
  | .sigAction => "signal"
  | .getTime | .nanoSleep => "time"

end CommonHostCall

namespace HostCallID

def toString : HostCallID → String
  | .common call => call.toString
  | .custom name => name

/-- Custom calls are not implemented, which `none` stands for. -/
def belongTo : HostCallID → Option String
  | .common call => some call.belongTo
  | .custom _ => none

end HostCallID

/-- The fields of `UserHostCall`. -/
inductive Entry where
  | metricAddr | fsImageAddr | spawnThread | writeAddr | openAddr | readAddr | closeAddr
  | lseekAddr | statAddr | readdirAddr | connectAddr | socketAddr | bindAddr | acceptAddr
  | stdoutAddr | fatfsOpenAddr | fatfsWriteAddr | fatfsReadAddr | fatfsCloseAddr | fatfsSeekAddr
  | fatfsStatAddr | smoltcpAddrinfoAddr | smoltcpConnectAddr | smoltcpSendAddr | smoltcpRecvAddr
  | smoltcpBindAddr | smoltcpAcceptAddr | smoltcpCloseAddr | allocBufferAddr | accessBufferAddr
  | deallocBufferAddr | mmapAddr | munmapAddr | mprotectAddr | pfHandlerAddr
  | registerFileBackendAddr | unregisterFileBackendAddr | getTimeAddr | nanosleepAddr
  | sigactionAddr
  deriving DecidableEq, Repr

abbrev UserHostCall := Entry → Option Nat

/-- The field that `get_or_find` reads and fills for a call. -/
def CommonHostCall.entry : CommonHostCall → Entry
  | .metric => .metricAddr
  | .fsImage => .fsImageAddr
  | .spawnFaultThread => .spawnThread
  | .write => .writeAddr
  | .open => .openAddr
  | .read => .readAddr
  | .close => .closeAddr
  | .lseek => .lseekAddr
  | .stat => .statAddr
  | .readDir => .readdirAddr
  | .connect => .connectAddr
  | .socket => .socketAddr
  | .bind => .bindAddr
  | .accept => .acceptAddr
  | .stdout => .stdoutAddr
  | .fatfsOpen => .fatfsOpenAddr
  | .fatfsWrite => .fatfsWriteAddr
  | .fatfsRead => .fatfsReadAddr
  | .fatfsClose => .fatfsCloseAddr
  | .fatfsSeek => .fatfsSeekAddr
  | .fatfsStat => .fatfsStatAddr
  | .smoltcpAddrInfo => .smoltcpAddrinfoAddr
  | .smoltcpConnect => .smoltcpConnectAddr
  | .smoltcpSend => .smoltcpSendAddr
  | .smoltcpRecv => .smoltcpRecvAddr
  | .smoltcpBind => .smoltcpBindAddr
  | .smoltcpAccept => .smoltcpAcceptAddr
  | .smoltcpClose => .smoltcpCloseAddr
  | .bufferAlloc => .allocBufferAddr
  | .accessBuffer => .accessBufferAddr
  | .bufferDealloc => .deallocBufferAddr
  | .mmap => .mmapAddr
  | .munmap => .munmapAddr
  | .mprotect => .mprotectAddr
  | .registerFileBackend => .registerFileBackendAddr
  | .unregisterFileBackend => .unregisterFileBackendAddr
  | .filePageFaultHandler => .pfHandlerAddr
  | .getTime => .getTimeAddr
  | .nanoSleep => .nanosleepAddr
  | .sigAction => .sigactionAddr

/-- The call whose address a field holds. -/
def Entry.call : Entry → CommonHostCall
  | .metricAddr => .metric
  | .fsImageAddr => .fsImage
  | .spawnThread => .spawnFaultThread
  | .writeAddr => .write
  | .openAddr => .open
  | .readAddr => .read
  | .closeAddr => .close
  | .lseekAddr => .lseek
  | .statAddr => .stat
  | .readdirAddr => .readDir
  | .connectAddr => .connect
  | .socketAddr => .socket
  | .bindAddr => .bind
  | .acceptAddr => .accept
  | .stdoutAddr => .stdout
  | .fatfsOpenAddr => .fatfsOpen
  | .fatfsWriteAddr => .fatfsWrite
  | .fatfsReadAddr => .fatfsRead
  | .fatfsCloseAddr => .fatfsClose
  | .fatfsSeekAddr => .fatfsSeek
  | .fatfsStatAddr => .fatfsStat
  | .smoltcpAddrinfoAddr => .smoltcpAddrInfo
  | .smoltcpConnectAddr => .smoltcpConnect
  | .smoltcpSendAddr => .smoltcpSend
  | .smoltcpRecvAddr => .smoltcpRecv
  | .smoltcpBindAddr => .smoltcpBind
  | .smoltcpAcceptAddr => .smoltcpAccept
  | .smoltcpCloseAddr => .smoltcpClose
  | .allocBufferAddr => .bufferAlloc
  | .accessBufferAddr => .accessBuffer
  | .deallocBufferAddr => .bufferDealloc
  | .mmapAddr => .mmap
  | .munmapAddr => .munmap
  | .mprotectAddr => .mprotect
  | .pfHandlerAddr => .filePageFaultHandler
  | .registerFileBackendAddr => .registerFileBackend
  | .unregisterFileBackendAddr => .unregisterFileBackend
  | .getTimeAddr => .getTime
  | .nanosleepAddr => .nanoSleep
  | .sigactionAddr => .sigAction

theorem entry_call (call : CommonHostCall) : call.entry.call = call := by
  cases call <;> rfl

/-- No two calls share a field. -/
theorem entry_injective : Function.Injective CommonHostCall.entry :=
  Function.LeftInverse.injective entry_call

end AlloyStack.AsStd
