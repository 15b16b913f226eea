/-
# Teadfs.DecryptedView — the decrypted view of a labelled file is its plaintext

A labelled lower file is a 256-byte label followed by the encrypted plaintext. An
`OFR_DECRYPT` handle reads and writes it through `i_decrypt`. `DecryptedView` says
what the file then looks like from above: the lower file is the label and the
encryption of `plain`, the upper `i_size` is the lower size, label included, and
every Uptodate page agrees with `plain` as far as `plain` goes. The rest of a last
page is whatever its frame held, and stays out of the statement.

A write that starts inside the plaintext or at its end never meets the shifted
`i_size`: its page begins at or before the plaintext's end, hence 256 bytes or more
before `i_size`, so neither the truncate nor the zero fill of `treadfs_write_begin`
is reached (`DecryptedView.contiguous`). The kernel starts a write through an `O_APPEND`
handle at `i_size`, which is behind the plaintext's end; so none of these is such a write.
-/
import Teadfs.Lib.Simulation
import Teadfs.Views

namespace Teadfs

set_option autoImplicit false

open Protocol FileContent Frame Relation

/-- The decrypted view of the labelled file `label`, `plain`. -/
structure DecryptedView (enc : Equiv.Perm UInt8) (label plain : List UInt8) (w : World) : Prop where
  lower : w.inode.lower = label ++ plain.map enc
  size : w.inode.iSize = w.inode.lower.length
  pages : ∀ (index : Nat) (i : Fin pageCacheSize) (byte : UInt8),
    (w.page .decrypted index).uptodate = true → plain[index * pageCacheSize + i]? = some byte →
      (w.page .decrypted index).data i = byte

/-- A page-bounded write, of which the copy moves `copied` bytes, or a page read. -/
inductive ViewOp where
  | write (pos : Nat) (data : List UInt8) (copied : Nat)
  | readpage (index : Nat)

namespace ViewOp

/-- A write starts where the kernel starts it through the handle, and no later than the end of
the plaintext, and stays in its page. -/
def Admissible (file : FileInfo) (w : World) (plain : List UInt8) : ViewOp → Prop
  | .write pos data copied =>
      writePos file pos w = pos ∧ pos ≤ plain.length ∧
        pos % pageCacheSize + data.length ≤ pageCacheSize ∧ copied ≤ data.length
  | .readpage _ => True

instance (file : FileInfo) (w : World) (plain : List UInt8) (op : ViewOp) :
    Decidable (op.Admissible file w plain) :=
  match op with
  | .write _ _ _ => inferInstanceAs (Decidable (_ ∧ _ ∧ _ ∧ _))
  | .readpage _ => inferInstanceAs (Decidable True)

/-- The operation on the file. -/
def run (env : Env) (proc : Nat) (dentry : Dentry) (file : FileInfo) : ViewOp → World → World
  | .write pos data copied, w => (writeChunk env proc dentry file pos data copied w).2
  | .readpage index, w => (teadfsReadpage env proc file index w).2

/-- The operation on the plaintext. -/
def apply : ViewOp → List UInt8 → List UInt8
  | .write pos data copied, plain => FileContent.write 0 pos (data.take copied) plain
  | .readpage _, plain => plain

end ViewOp

section View

variable {env : Env} {enc : Equiv.Perm UInt8} {onOpen onRelease : Nat → Nat → List UInt8 → Int}
  {proc : Nat} {file : FileInfo} {label plain : List UInt8} {w : World}

/-- The lower bytes of a page range, decrypted, are the plaintext's. -/
theorem map_slice_lower (labelled : label.length = encryptFileHeaderSize)
    (lower : w.inode.lower = label ++ plain.map enc) (offset n : Nat) :
    (slice (offset + encryptFileHeaderSize) n w.inode.lower).map enc.symm =
      slice offset n plain := by
  rw [lower, ← labelled, Nat.add_comm]
  simp [slice, ← List.drop_drop, ← List.map_drop, ← List.map_take, Function.comp_def]

/-- The decrypted view shows the plaintext. -/
theorem fresh_decrypted (labelled : label.length = encryptFileHeaderSize)
    (lower : w.inode.lower = label ++ plain.map enc) (p : Nat) :
    fresh enc .decrypted w p = plain[p]? := by
  rw [fresh, View.label, View.cipher, lower, ← labelled, List.getElem?_append_right (by omega),
    Nat.add_sub_cancel_left, List.getElem?_map, Option.map_map]
  simp

theorem DecryptedView.matches (labelled : label.length = encryptFileHeaderSize)
    (view : DecryptedView enc label plain w) : Matches enc .decrypted w := by
  intro index i byte uptodate read
  rw [fresh_decrypted labelled view.lower] at read
  exact view.pages index i byte uptodate read

theorem DecryptedView.of_matches (labelled : label.length = encryptFileHeaderSize)
    (lower : w.inode.lower = label ++ plain.map enc) (size : w.inode.iSize = w.inode.lower.length)
    (pages : Matches enc .decrypted w) : DecryptedView enc label plain w := by
  refine ⟨lower, size, ?_⟩
  intro index i byte uptodate inside
  rw [← fresh_decrypted labelled lower] at inside
  exact pages index i byte uptodate inside

/-- Filling a page keeps the view. -/
theorem fillPage_view (obliging : Obliging env)
    (answers : Answers env (cipherCb enc onOpen onRelease)) (isOpen : file.lowerFile.isSome)
    (labelled : label.length = encryptFileHeaderSize) (connected : Connected proc w)
    (view : DecryptedView enc label plain w) (index : Nat) :
    (fillPage env proc file index w).1 = 0 ∧
      DecryptedView enc label plain (fillPage env proc file index w).2 := by
  have served : Served proc file w := ⟨isOpen, fun _ => connected⟩
  obtain ⟨rc, -, pages⟩ := fillPage_matches obliging answers served index
  exact ⟨rc, .of_matches labelled (by simpa using view.lower) (by simpa using view.size)
    (pages .decrypted (view.matches labelled))⟩

/-- A write that starts in the plaintext or at its end is contiguous: its page begins at
least a label's length before `i_size`. -/
theorem DecryptedView.contiguous (labelled : label.length = encryptFileHeaderSize)
    (view : DecryptedView enc label plain w) {pos : Nat} (start : pos ≤ plain.length) :
    Contiguous .decrypted pos w := by
  have page := Nat.div_mul_le_self pos pageCacheSize
  have header : 0 < encryptFileHeaderSize := by decide
  rw [Contiguous, view.size, view.lower, List.length_append, labelled, List.length_map, View.label]
  omega

/-- It is not made through an appending handle, and goes to its place. -/
theorem DecryptedView.inPlace (labelled : label.length = encryptFileHeaderSize)
    (view : DecryptedView enc label plain w) {pos : Nat} (start : pos ≤ plain.length)
    (placed : writePos file pos w = pos) : InPlace file pos w := by
  intro append
  have header : 0 < encryptFileHeaderSize := by decide
  rw [writePos, if_pos append, view.size, view.lower, List.length_append, List.length_map,
    labelled] at placed
  omega

/-- A write that starts in the plaintext applies itself to it. -/
theorem writeChunk_decrypted (dentry : Dentry) (obliging : Obliging env)
    (answers : Answers env (cipherCb enc onOpen onRelease)) (isOpen : file.lowerFile.isSome)
    (decrypt : file.access = .decrypt) (labelled : label.length = encryptFileHeaderSize)
    (connected : Connected proc w) (view : DecryptedView enc label plain w) {pos copied : Nat}
    {data : List UInt8} (placed : writePos file pos w = pos) (start : pos ≤ plain.length)
    (bounded : pos % pageCacheSize + data.length ≤ pageCacheSize) (short : copied ≤ data.length) :
    DecryptedView enc label (write 0 pos (data.take copied) plain)
        (writeChunk env proc dentry file pos data copied w).2 ∧
      Steady w (writeChunk env proc dentry file pos data copied w).2 := by
  have served : Served proc file w := ⟨isOpen, fun _ => connected⟩
  have kept := view.matches labelled
  have contiguous := view.contiguous labelled start
  rw [← view_of_decrypt decrypt] at kept contiguous
  obtain ⟨-, stored⟩ := writeChunk_stored obliging answers dentry served
    (by rw [decrypt]; decide) kept contiguous (view.inPlace labelled start placed) bounded short
  have lower : write 0 (encryptFileHeaderSize + pos) ((data.take copied).map enc)
      (label ++ plain.map enc) = label ++ (write 0 pos (data.take copied) plain).map enc := by
    rw [← labelled, write_append_left, map_write, write_filler 0 (enc 0) _ (by simpa using start)]
  rw [view_of_decrypt decrypt] at stored
  refine ⟨.of_matches labelled ?_ stored.size stored.pages, stored.steady⟩
  rw [stored.lower, view.lower]
  exact lower

/-- One operation keeps the view of the plaintext it is applied to. -/
theorem viewOp_view (dentry : Dentry) (obliging : Obliging env)
    (answers : Answers env (cipherCb enc onOpen onRelease)) (isOpen : file.lowerFile.isSome)
    (decrypt : file.access = .decrypt) (labelled : label.length = encryptFileHeaderSize)
    (op : ViewOp) (admissible : op.Admissible file w plain)
    (holds : DecryptedView enc label plain w ∧ Connected proc w) :
    DecryptedView enc label (op.apply plain) (op.run env proc dentry file w) ∧
      Connected proc (op.run env proc dentry file w) := by
  obtain ⟨view, connected⟩ := holds
  cases op with
  | readpage index =>
      obtain ⟨-, kept⟩ :=
        fillPage_view obliging answers isOpen labelled connected view index
      exact ⟨kept, (fillPage_steady env proc file index w).connected connected⟩
  | write pos data copied =>
      obtain ⟨placed, start, bounded, short⟩ := admissible
      obtain ⟨written, same⟩ := writeChunk_decrypted dentry obliging answers isOpen decrypt labelled
        connected view placed start bounded short
      exact ⟨written, same.connected connected⟩

end View

/-- A labelled file nobody has read yet is in view. -/
theorem freshWorld_view (enc : Equiv.Perm UInt8) (label plain : List UInt8) :
    DecryptedView enc label plain (freshWorld (label ++ plain.map enc)) :=
  ⟨rfl, rfl, fun _ _ _ absent => absurd absent (by simp [freshWorld, World.page])⟩

end Teadfs
