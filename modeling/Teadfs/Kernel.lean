/-
# Teadfs.Kernel — what the module keeps, and what answers it

The state one mounted file gives the module: the lower file, the upper inode with
its two page mappings, and the upcall channel. Everything the module asks of code
outside it (the client, the allocator, the lower file system) is answered by an
`Env`, keyed by a `clock` that ticks at every question, so that each answer may be
any answer at any time. Nothing here assumes that an answer is a good one.

The channel also keeps a `log` of the upcalls made and of the blocks that reached
the lower file. No code reads it; it is there for properties of one operation.
-/
import Teadfs.Lib.Frame
import Teadfs.Protocol

namespace Teadfs

set_option autoImplicit false

open Protocol FileContent

/-- `PAGE_CACHE_SIZE`; `PAGE_CACHE_SHIFT` is 12. -/
def pageCacheSize : Nat := 4096

/-- `PATH_MAX`. -/
def pathMax : Nat := 4096

def eio : Int := -5
def enomem : Int := -12
def eacces : Int := -13
def einval : Int := -22

/-- A negative error code of a call outside the module. -/
abbrev Errno := { rc : Int // rc < 0 }

/-- How a lower transfer ends: with an error, after `n` bytes, or complete. -/
inductive Transfer where
  | fails (errno : Errno)
  | short (n : Nat)
  | full

/-- The bytes moved when `n` could be. -/
def Transfer.amount : Transfer → Nat → Nat
  | .fails _, _ => 0
  | .short k, n => min k n
  | .full, n => n

/-- What `teadfs_request_send` came back with: it had no memory for the message
context, the response is absent (timeout, or the handler could not copy it), or a
reply was stored. -/
inductive SendResult where
  | noCtx
  | noReply
  | reply (reply : Reply)

/-- The access mode of an open file. -/
inductive AccMode where
  | rdonly
  | wronly
  | rdwr
  deriving DecidableEq, Repr

/-- The `f_flags` of a file, as far as an open hands them on. -/
structure OpenFlags where
  mode : AccMode
  /-- `O_APPEND`. -/
  append : Bool
  deriving DecidableEq, Repr

/-- A page frame's bytes. -/
abbrev FrameBytes := Fin pageCacheSize → UInt8

/-- The answers from outside the module, by the tick they are asked at. -/
structure Env where
  /-- The answer to a request packet. -/
  send : Nat → Packet → SendResult
  /-- `teadfs_zalloc` of a request packet. -/
  packetAlloc : Nat → Bool
  /-- `teadfs_zalloc` of a path buffer. -/
  pathAlloc : Nat → Bool
  /-- Every other `teadfs_zalloc`. -/
  zalloc : Nat → Bool
  kernelRead : Nat → Transfer
  kernelWrite : Nat → Transfer
  dentryOpen : Nat → AccMode → Option Errno
  inodeChangeOk : Nat → Option Errno
  notifyChange : Nat → Option Errno
  /-- `grab_cache_page_write_begin` finds or makes a page. -/
  grabPage : Nat → Bool
  /-- What a frame newly added to a mapping holds. -/
  frame : Nat → Nat → FrameBytes

/-- `struct global_param`. -/
structure GlobalParam where
  uniqueId : Nat
  pid : Nat
  connect : Bool

/-- One entry of the log. -/
inductive Event where
  /-- An upcall: its kind, the packet if one was built, what the request function
  returned, and the bytes it stored for its caller. -/
  | upcall (type : MsgType) (packet : Option Packet) (rc : Int) (block : List UInt8)
  /-- A block that reached the lower file. -/
  | lowerWrite (offset : Nat) (block : List UInt8)

structure Channel where
  glob : GlobalParam
  clock : Nat
  log : List Event

/-- A page of a mapping. A page that is not in the cache is a page that is not
Uptodate: its frame's bytes are then arbitrary. -/
structure Page where
  uptodate : Bool
  data : FrameBytes

abbrev Mapping := Nat → Page

/-- The two mappings of one inode: its own, and `i_decrypt`. -/
inductive View where
  | raw
  | decrypted
  deriving DecidableEq, Repr

/-- The lower `struct file`s of an inode: those opened and not yet put, and whether one was
put that was not open. -/
structure LowerFiles where
  opened : List Nat
  stray : Bool

namespace LowerFiles

def get (ref : Nat) (files : LowerFiles) : LowerFiles := ⟨ref :: files.opened, files.stray⟩

def put (ref : Nat) (files : LowerFiles) : LowerFiles :=
  ⟨files.opened.erase ref, files.stray || decide (ref ∉ files.opened)⟩

@[simp] theorem put_get (ref : Nat) (files : LowerFiles) : (files.get ref).put ref = files := by
  simp [get, put]

theorem stray_put {ref : Nat} {files : LowerFiles} (there : ref ∈ files.opened) :
    (files.put ref).stray = files.stray := by
  simp [put, there]

end LowerFiles

/-- `struct teadfs_inode_info` and the lower file behind it. -/
structure InodeInfo where
  /-- The bytes of the lower file; the lower `i_size` is their number. -/
  lower : List UInt8
  /-- The upper `i_size`. -/
  iSize : Nat
  mapping : View → Mapping
  isReg : Bool
  lowerFileCount : Int
  fileDecrypt : Bool
  lowerRefs : LowerFiles

/-- The names of a file: `d_path` of the upper and of the lower path, and whether
the lower path is still set. -/
structure Dentry where
  path : List UInt8
  lowerPath : List UInt8
  lowerPathSet : Bool

/-- `struct teadfs_file_info`, and whether the file was opened with `O_APPEND`; so was then
its lower file. -/
structure FileInfo where
  lowerFile : Option Nat
  access : OpenFileResult
  filePath : List UInt8
  append : Bool

/-- The mapping `f_mapping` of a handle points to. -/
def FileInfo.view (file : FileInfo) : View :=
  if file.access = .decrypt then .decrypted else .raw

structure World where
  inode : InodeInfo
  chan : Channel

namespace World

def tick (w : World) : World := { w with chan.clock := w.chan.clock + 1 }

def record (w : World) (event : Event) : World :=
  { w with chan.log := w.chan.log ++ [event] }

def setLower (w : World) (lower : List UInt8) : World := { w with inode.lower := lower }

def setSize (w : World) (size : Nat) : World := { w with inode.iSize := size }

def page (w : World) (view : View) (index : Nat) : Page := w.inode.mapping view index

def setPage (w : World) (view : View) (index : Nat) (page : Page) : World :=
  { w with
    inode.mapping := Function.update w.inode.mapping view
      (Function.update (w.inode.mapping view) index page) }

section Simp

variable (w : World) (event : Event) (lower : List UInt8) (size : Nat) (view : View) (index : Nat)
  (p : Page)

@[simp] theorem tick_inode : w.tick.inode = w.inode := rfl
@[simp] theorem tick_glob : w.tick.chan.glob = w.chan.glob := rfl
@[simp] theorem tick_clock : w.tick.chan.clock = w.chan.clock + 1 := rfl
@[simp] theorem tick_log : w.tick.chan.log = w.chan.log := rfl
@[simp] theorem record_inode : (w.record event).inode = w.inode := rfl
@[simp] theorem record_glob : (w.record event).chan.glob = w.chan.glob := rfl
@[simp] theorem record_clock : (w.record event).chan.clock = w.chan.clock := rfl
@[simp] theorem record_log : (w.record event).chan.log = w.chan.log ++ [event] := rfl
@[simp] theorem setLower_inode :
    (w.setLower lower).inode = { w.inode with lower := lower } := rfl
@[simp] theorem setLower_chan : (w.setLower lower).chan = w.chan := rfl
@[simp] theorem setSize_inode : (w.setSize size).inode = { w.inode with iSize := size } := rfl
@[simp] theorem setSize_chan : (w.setSize size).chan = w.chan := rfl
@[simp] theorem setPage_chan : (w.setPage view index p).chan = w.chan := rfl
@[simp] theorem setPage_lower : (w.setPage view index p).inode.lower = w.inode.lower := rfl
@[simp] theorem setPage_iSize : (w.setPage view index p).inode.iSize = w.inode.iSize := rfl

theorem setSize_self {w : World} {size : Nat} (same : w.inode.iSize = size) :
    w.setSize size = w := by
  subst same
  rfl

theorem setPage_self : w.setPage view index ⟨(w.page view index).uptodate,
    (w.page view index).data⟩ = w := by
  simp [setPage, page]

@[simp] theorem page_setPage_self : (w.setPage view index p).page view index = p := by
  simp [page, setPage]

theorem page_setPage_of_ne {view' : View} {index' : Nat} (ne : index' ≠ index) :
    (w.setPage view index p).page view' index' = w.page view' index' := by
  by_cases same : view' = view
  · subst same
    simp [page, setPage, ne]
  · simp [page, setPage, same]

end Simp

end World

/-! ## The lower file system -/

/-- `kernel_read` of `size` bytes at `offset` of the lower file. -/
def kernelRead (env : Env) (offset size : Nat) (w : World) : Except Errno (List UInt8) × World :=
  match env.kernelRead w.chan.clock with
  | .fails errno => (.error errno, w.tick)
  | transfer =>
      let avail := slice offset size w.inode.lower
      (.ok (avail.take (transfer.amount avail.length)), w.tick)

/-- Where a lower write at `offset` goes: through a lower file opened with `O_APPEND`, to the
end of it. -/
def writtenAt (append : Bool) (offset : Nat) (w : World) : Nat :=
  if append then w.inode.lower.length else offset

@[simp] theorem writtenAt_false (offset : Nat) (w : World) : writtenAt false offset w = offset :=
  rfl

/-- `kernel_write` of `data` at `offset` of the lower file; a gap is zero-filled. -/
def kernelWrite (env : Env) (append : Bool) (data : List UInt8) (offset : Nat) (w : World) :
    Int × World :=
  match env.kernelWrite w.chan.clock with
  | .fails errno => (errno, w.tick)
  | transfer =>
      let offset := writtenAt append offset w
      let sent := data.take (transfer.amount data.length)
      (sent.length,
        (w.tick.setLower (write 0 offset sent w.inode.lower)).record (.lowerWrite offset sent))

/-- `dentry_open` of the lower path; the new `struct file` is named by its tick. -/
def dentryOpen (env : Env) (mode : AccMode) (w : World) : Except Errno Nat × World :=
  match env.dentryOpen w.chan.clock mode with
  | some errno => (.error errno, w.tick)
  | none =>
      (.ok w.chan.clock,
        { w.tick with inode.lowerRefs := w.inode.lowerRefs.get w.chan.clock })

/-- `fput` of a lower `struct file`. -/
def fput (ref : Nat) (w : World) : World :=
  { w with inode.lowerRefs := w.inode.lowerRefs.put ref }

/-- A `teadfs_zalloc` outside the upcall layer. -/
def zalloc (env : Env) (w : World) : Bool × World := (env.zalloc w.chan.clock, w.tick)

end Teadfs
