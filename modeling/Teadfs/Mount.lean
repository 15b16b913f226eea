/-
# Teadfs.Mount — many files, many processes

The functions of the earlier modules act on one file. A `Mount` has all of its regular
files, the open handles with the process that opened each, and the one channel to the
client; an operation of a process runs on the file it is about and leaves the others
alone. Whose handle it uses is not looked at: a descriptor may be inherited or passed on.
`Untouched` is what most operations are to a lower file: they may fill pages,
count handles and talk to the client, and its bytes stay. Its lemmas follow the
functions from the upcalls up to the operations.
-/
import Teadfs.Client

namespace Teadfs

set_option autoImplicit false

open Protocol

/-- An open `struct file`: who opened it, and on which file. -/
structure Handle where
  proc : Nat
  file : Nat
  info : FileInfo

structure Mount where
  files : Nat → InodeInfo
  /-- The open files, by the name each was given. -/
  handles : Nat → Option Handle
  chan : Channel

namespace Mount

/-- One file, as the functions of the module see it. -/
def world (m : Mount) (f : Nat) : World := ⟨m.files f, m.chan⟩

/-- The mount after an operation on one file. -/
def put (m : Mount) (f : Nat) (w : World) : Mount :=
  { m with
    files := Function.update m.files f w.inode
    chan := w.chan }

@[simp] theorem put_files_self (m : Mount) (f : Nat) (w : World) : (m.put f w).files f = w.inode :=
  Function.update_self ..

theorem put_files_of_ne (m : Mount) {f g : Nat} (other : g ≠ f) (w : World) :
    (m.put f w).files g = m.files g :=
  Function.update_of_ne other ..

end Mount

/-- What a process does. -/
inductive MountOp where
  | «open» (proc f : Nat) (flags : OpenFlags) (id : Nat)
  | write (proc id pos : Nat) (data : List UInt8)
  /-- A size change by path. -/
  | truncate (proc f n : Nat)
  /-- A size change by handle. -/
  | ftruncate (proc id n : Nat)
  /-- The close of the last descriptor. -/
  | close (proc id : Nat)

namespace MountOp

def proc : MountOp → Nat
  | .open proc _ _ _ => proc
  | .write proc _ _ _ => proc
  | .truncate proc _ _ => proc
  | .ftruncate proc _ _ => proc
  | .close proc _ => proc

/-- The operation, on a mount whose files are named by `names`. Any process may use any
handle; a `struct file` in use is not opened again. -/
def run (env : Env) (names : Nat → Dentry) : MountOp → Mount → Mount
  | .open proc f flags id, m =>
      if (m.handles id).isSome then m
      else
        match teadfsOpen env proc (names f) flags id (m.world f) with
        | (.error _, w) => m.put f w
        | (.ok info, w) =>
            { m.put f w with handles := Function.update m.handles id (some ⟨proc, f, info⟩) }
  | .write proc id pos data, m =>
      match m.handles id with
      | none => m
      | some h =>
          m.put h.file
            (teadfsAioWrite env proc (names h.file) h.info pos data (m.world h.file)).2
  | .truncate proc f n, m =>
      m.put f (teadfsSetattr env proc (names f) (sizeChange n false) (m.world f)).2
  | .ftruncate proc id n, m =>
      match m.handles id with
      | none => m
      | some h =>
          m.put h.file
            (teadfsSetattr env proc (names h.file) (sizeChange n true) (m.world h.file)).2
  | .close proc id, m =>
      match m.handles id with
      | none => m
      | some h =>
          { m.put h.file (teadfsRelease env proc (names h.file) h.info id (m.world h.file)) with
            handles := Function.update m.handles id none }

end MountOp

/-! ## Operations that leave the lower file alone -/

/-- The client, the kind of the file and the lower bytes are the same. -/
def Untouched (w w' : World) : Prop := Steady w w' ∧ w'.inode.lower = w.inode.lower

theorem Untouched.refl (w : World) : Untouched w w := ⟨.refl w, rfl⟩

theorem Untouched.trans {w w' w'' : World} (first : Untouched w w') (second : Untouched w' w'') :
    Untouched w w'' :=
  ⟨first.1.trans second.1, second.2.trans first.2⟩

section Upcalls

variable (env : Env) (proc : Nat) (dentry : Dentry) (file : FileInfo) (fileId : Nat) (w : World)

theorem teadfsRequestOpenFile_untouched :
    Untouched w (teadfsRequestOpenFile env proc dentry fileId w).2 := by
  simp only [teadfsRequestOpenFile]
  split
  · exact ⟨⟨rfl, rfl, rfl⟩, rfl⟩
  · exact ⟨teadfsRequestOpen_steady env proc dentry.path fileId w.tick, by simp⟩

theorem teadfsRequestRelease_untouched (path : List UInt8) :
    Untouched w (teadfsRequestRelease env proc path fileId w).2 :=
  ⟨exchange_steady .., by simp [teadfsRequestRelease]⟩

theorem dentryOpen_untouched (mode : AccMode) : Untouched w (dentryOpen env mode w).2 := by
  unfold dentryOpen
  split <;> exact ⟨⟨rfl, rfl, rfl⟩, rfl⟩

theorem teadfsGetLowerFile_untouched (counted : Bool) (mode : AccMode) :
    Untouched w (teadfsGetLowerFile env proc counted mode w).2 := by
  simp only [teadfsGetLowerFile]
  split_ifs
  · exact ⟨⟨rfl, rfl, rfl⟩, rfl⟩
  · obtain ⟨steady, lower⟩ := dentryOpen_untouched env
      { w with inode.lowerFileCount := w.inode.lowerFileCount + 1 } mode
    split <;> rename_i answer <;> rw [answer] at steady lower <;> exact ⟨steady, lower⟩
  · exact dentryOpen_untouched env w mode

theorem fputLower_untouched : Untouched w (fputLower file w) := by
  unfold fputLower
  split <;> exact ⟨⟨rfl, rfl, rfl⟩, rfl⟩

theorem teadfsPutLowerFile_untouched (counted : Bool) :
    Untouched w (teadfsPutLowerFile env proc counted dentry file fileId w) := by
  obtain ⟨w', less⟩ : ∃ w', w' = { w with inode.lowerFileCount := w.inode.lowerFileCount - 1 } :=
    ⟨_, rfl⟩
  have counts : Untouched w w' := by
    rw [less]
    exact ⟨⟨rfl, rfl, rfl⟩, rfl⟩
  obtain ⟨w'', closed⟩ : ∃ w'', w'' = if dentry.lowerPathSet then w' else fputLower file w' :=
    ⟨_, rfl⟩
  have closes : Untouched w w'' := by
    rw [closed]
    split
    · exact counts
    · exact counts.trans (fputLower_untouched file w')
  simp only [teadfsPutLowerFile, ← less, ← closed]
  split_ifs
  · exact closes.trans (teadfsRequestRelease_untouched env proc fileId w'' file.filePath)
  · exact closes
  · exact counts
  · exact fputLower_untouched file w

/-- The verdict an open asks for, and the state then. -/
def openVerdict : OpenFileResult × World :=
  if w.inode.isReg then
    teadfsRequestOpenFile env proc dentry fileId { w.tick with inode.fileDecrypt := false }
  else (.init, { w.tick with inode.fileDecrypt := false })

theorem teadfsOpen_eq (flags : OpenFlags) :
    teadfsOpen env proc dentry flags fileId w =
      if env.zalloc w.chan.clock = false then (.error enomem, w.tick)
      else if (openVerdict env proc dentry fileId w).1 = .prohibit then
        (.error eacces, (openVerdict env proc dentry fileId w).2)
      else
        match teadfsGetLowerFile env proc true (lowerMode flags.mode)
          (openVerdict env proc dentry fileId w).2 with
        | (.error errno, w) => (.error errno, w)
        | (.ok ref, w') =>
            (.ok ⟨some ref, (openVerdict env proc dentry fileId w).1, dentry.path, flags.append⟩,
              w') :=
  rfl

theorem openVerdict_untouched : Untouched w (openVerdict env proc dentry fileId w).2 := by
  unfold openVerdict
  split
  · exact teadfsRequestOpenFile_untouched env proc dentry fileId
      { w.tick with inode.fileDecrypt := false }
  · exact ⟨⟨rfl, rfl, rfl⟩, rfl⟩

theorem teadfsOpen_untouched (flags : OpenFlags) :
    Untouched w (teadfsOpen env proc dentry flags fileId w).2 := by
  have asks := openVerdict_untouched env proc dentry fileId w
  have opens := asks.trans (teadfsGetLowerFile_untouched env proc
    (openVerdict env proc dentry fileId w).2 true (lowerMode flags.mode))
  rw [teadfsOpen_eq]
  split_ifs
  · exact ⟨⟨rfl, rfl, rfl⟩, rfl⟩
  · exact asks
  · split <;> rename_i answer <;> rw [answer] at opens <;> exact opens

theorem teadfsRelease_untouched :
    Untouched w (teadfsRelease env proc dentry file fileId w) :=
  teadfsPutLowerFile_untouched ..

end Upcalls

/-! ## What every write keeps -/

section Writes

variable (env : Env) (proc : Nat) (dentry : Dentry) (file : FileInfo)

theorem pageForWrite_untouched (index : Nat) (w : World) :
    Untouched w (pageForWrite env proc file index w).2 := by
  unfold pageForWrite
  split
  · exact ⟨⟨rfl, rfl, rfl⟩, rfl⟩
  · exact ⟨fillPage_steady env proc file index w.tick, by simp⟩

theorem pageForWrite_iSize (index : Nat) (w : World) :
    (pageForWrite env proc file index w).2.inode.iSize = w.inode.iSize := by
  unfold pageForWrite
  split
  · rfl
  · simp

theorem treadfsWriteBegin_steady (pos : Nat) (w : World) :
    Steady w (treadfsWriteBegin env proc dentry file pos w).2 := by
  have filled := (pageForWrite_untouched env proc file (pos / pageCacheSize) w).1
  rcases treadfsWriteBegin_cases env proc dentry file pos w with
    noPage | ⟨-, stopped⟩ | ⟨-, grown, grow, ending⟩
  · rw [noPage]
    exact ⟨rfl, rfl, rfl⟩
  · rw [stopped]
    exact filled
  · have grows : Steady w grown.2 := by
      rcases grow with ⟨-, rfl⟩ | ⟨-, rfl⟩
      · exact filled.trans (teadfsTruncate_steady ..)
      · exact filled
    rcases ending with ⟨-, stopped⟩ | ⟨-, frame, done⟩
    · rw [stopped]
      exact grows
    · rw [done]
      exact grows

theorem writeChunk_steady (pos : Nat) (data : List UInt8) (copied : Nat) (w : World) :
    Steady w (writeChunk env proc dentry file pos data copied w).2 := by
  have begins := treadfsWriteBegin_steady env proc dentry file pos w
  simp only [writeChunk]
  split
  · exact begins
  · exact begins.trans (teadfsWriteEnd_steady env proc file pos data.length copied
      (copyToPage file pos (data.take copied) (treadfsWriteBegin env proc dentry file pos w).2))

theorem genericPerformWrite_steady (fuel pos : Nat) (data : List UInt8) (w : World) :
    Steady w (genericPerformWrite env proc dentry file fuel pos data w).2 := by
  induction fuel generalizing pos data w with
  | zero => exact .refl w
  | succ fuel ih =>
      simp only [genericPerformWrite]
      split_ifs
      · exact .refl w
      · exact writeChunk_steady ..
      · exact (writeChunk_steady env proc dentry file pos _ _ w).trans (ih ..)
      · exact (writeChunk_steady env proc dentry file pos _ _ w).trans (ih ..)

theorem teadfsAioWrite_steady (pos : Nat) (data : List UInt8) (w : World) :
    Steady w (teadfsAioWrite env proc dentry file pos data w).2 := by
  have writes := genericPerformWrite_steady env proc dentry file data.length (writePos file pos w)
    data w
  simp only [teadfsAioWrite]
  split <;> exact writes

/-- A page that does not start beyond `i_size` needs no extension. -/
theorem treadfsWriteBegin_untouched_inside {pos : Nat} {w : World}
    (inside : pos / pageCacheSize * pageCacheSize ≤ w.inode.iSize) :
    Untouched w (treadfsWriteBegin env proc dentry file pos w).2 := by
  have filled := pageForWrite_untouched env proc file (pos / pageCacheSize) w
  have size := pageForWrite_iSize env proc file (pos / pageCacheSize) w
  rcases treadfsWriteBegin_cases env proc dentry file pos w with
    noPage | ⟨-, stopped⟩ | ⟨-, grown, ⟨beyond, -⟩ | ⟨-, rfl⟩, ending⟩
  · rw [noPage]
    exact ⟨⟨rfl, rfl, rfl⟩, rfl⟩
  · rw [stopped]
    exact filled
  · omega
  · rcases ending with ⟨-, stopped⟩ | ⟨-, frame, done⟩
    · rw [stopped]
      exact filled
    · rw [done]
      exact filled

/-- A pass through an `OFR_ENCRYPT` handle fails, and changes no more of the lower file than
its `treadfs_write_begin` does. -/
theorem writeChunk_encrypt {file : FileInfo} (encrypt : file.access = .encrypt) (pos : Nat)
    (data : List UInt8) (copied : Nat) (w : World) :
    (writeChunk env proc dentry file pos data copied w).1 < 0 ∧
      (Untouched w (treadfsWriteBegin env proc dentry file pos w).2 →
        Untouched w (writeChunk env proc dentry file pos data copied w).2) := by
  have refused := teadfsWriteLower_encrypt env proc encrypt
  have negative : eio < 0 := by decide
  have nonpos := treadfsWriteBegin_nonpos env proc dentry file pos w
  simp only [writeChunk]
  split
  · exact ⟨by omega, id⟩
  · constructor
    · simp only [teadfsWriteEnd, (refused _ _ _).1, negative, if_true]
    · intro begins
      refine begins.trans ⟨teadfsWriteEnd_steady env proc file pos data.length copied
        (copyToPage file pos (data.take copied) _), ?_⟩
      simp only [teadfsWriteEnd, (refused _ _ _).1, negative, if_true, (refused _ _ _).2]
      rfl

/-- A write through an `OFR_ENCRYPT` handle does not get beyond its first pass. -/
theorem teadfsAioWrite_encrypt {file : FileInfo} (encrypt : file.access = .encrypt) (pos : Nat)
    {data : List UInt8} {w : World}
    (begins : data ≠ [] →
      Untouched w (treadfsWriteBegin env proc dentry file (writePos file pos w) w).2) :
    Untouched w (teadfsAioWrite env proc dentry file pos data w).2 := by
  have raw : file.access ≠ .decrypt := by
    rw [encrypt]
    decide
  simp only [teadfsAioWrite, if_neg raw]
  cases data with
  | nil => exact .refl w
  | cons byte rest =>
      obtain ⟨failed, kept⟩ := writeChunk_encrypt env proc dentry encrypt (writePos file pos w)
        ((byte :: rest).take (chunkLen (writePos file pos w) (byte :: rest)))
        (chunkLen (writePos file pos w) (byte :: rest)) w
      simp only [List.length_cons, genericPerformWrite, List.isEmpty_cons, Bool.false_eq_true,
        if_false, failed, if_true]
      exact kept (begins (by simp))

end Writes

end Teadfs
