/-
# Teadfs.Fsync — stores through a shared mapping

`generic_file_mmap` lets a process store into the pages of a view without a call of the
module. What is stored gets to the lower file by `teadfs_writepage` only, which
`filemap_write_and_wait` calls for every dirty page and `teadfs_fsync` waits for. But
`teadfs_writepage` marks its page Uptodate and returns a variable that nothing was
assigned to; it writes nothing. So after an `fsync` that reports no error the lower file
holds what was stored exactly if it held it before (`mapped_stores_held_iff`).
-/
import Teadfs.Views
import Teadfs.WriteLoss

namespace Teadfs

set_option autoImplicit false

open Protocol FileContent Frame

/-! ## Writing back -/

/-- `teadfs_writepage`; `rc` is what its result variable happens to hold. -/
def teadfsWritepage (rc : Int) (view : View) (index : Nat) (w : World) : Int × World :=
  (rc, w.setPage view index ⟨true, (w.page view index).data⟩)

/-- `filemap_write_and_wait`: `teadfs_writepage` once on each dirty page, and the first error
it returns. `stack index` is what the result variable holds at page `index`. -/
def filemapWriteAndWait (stack : Nat → Int) (view : View) : List Nat → World → Int × World
  | [], w => (0, w)
  | index :: dirty, w =>
      let r := teadfsWritepage (stack index) view index w
      let rest := filemapWriteAndWait stack view dirty r.2
      (if r.1 ≠ 0 then r.1 else rest.1, rest.2)

/-- `teadfs_fsync` of a handle whose mapping has the pages `dirty` to write back; `vfsFsync`
is the answer of the lower file system. -/
def teadfsFsync (stack : Nat → Int) (vfsFsync : Option Errno) (file : FileInfo) (dirty : List Nat)
    (w : World) : Int × World :=
  let r := filemapWriteAndWait stack file.view dirty w
  if r.1 ≠ 0 then r
  else
    match vfsFsync with
    | some errno => (errno, r.2)
    | none => (0, r.2)

/-! ## What is held -/

/-- What a block at `offset` of a view is in the lower file, for a client with the callbacks
`cb`. -/
def sealBlock (cb : DealCb) (view : View) (offset : Nat) (block : List UInt8) : List UInt8 :=
  match view with
  | .raw => block
  | .decrypted => cb.onWrite offset block

/-- The bytes of page `index` of a view that are below the end of the file. -/
def pageLength (view : View) (inode : InodeInfo) (index : Nat) : Nat :=
  min pageCacheSize (inode.iSize - view.label - index * pageCacheSize)

/-- The lower file holds a page of a view as far as the file goes, encrypted and behind the
label if the view is decrypted. -/
def PageHeld (cb : DealCb) (view : View) (inode : InodeInfo) (index : Nat) (page : FrameBytes) :
    Prop :=
  HoldsBlock (view.label + index * pageCacheSize) (pageLength view inode index)
    (sealBlock cb view (index * pageCacheSize) (window page 0 (pageLength view inode index)))
    inode.lower

section Fsync

variable {stack : Nat → Int} {vfsFsync : Option Errno} {file : FileInfo} {view : View}

/-- Writing back changes neither the lower file nor the size. -/
theorem filemapWriteAndWait_inode (dirty : List Nat) (w : World) :
    (filemapWriteAndWait stack view dirty w).2.inode.lower = w.inode.lower ∧
      (filemapWriteAndWait stack view dirty w).2.inode.iSize = w.inode.iSize := by
  induction dirty generalizing w with
  | nil => exact ⟨rfl, rfl⟩
  | cons index dirty ih => exact ih (teadfsWritepage (stack index) view index w).2

/-- Writing back reports an error exactly if the variable held one for some page. -/
theorem filemapWriteAndWait_eq_zero_iff (dirty : List Nat) (w : World) :
    (filemapWriteAndWait stack view dirty w).1 = 0 ↔ ∀ index ∈ dirty, stack index = 0 := by
  induction dirty generalizing w with
  | nil => simp [filemapWriteAndWait]
  | cons index dirty ih =>
      simp only [filemapWriteAndWait, List.forall_mem_cons]
      split_ifs with error
      · exact ⟨fun none => absurd none error, fun none => absurd none.1 error⟩
      · rw [ih]
        exact ⟨fun rest => ⟨not_not.mp error, rest⟩, fun all => all.2⟩

/-- `teadfs_fsync` changes neither the lower file nor the size. -/
theorem teadfsFsync_inode (dirty : List Nat) (w : World) :
    (teadfsFsync stack vfsFsync file dirty w).2.inode.lower = w.inode.lower ∧
      (teadfsFsync stack vfsFsync file dirty w).2.inode.iSize = w.inode.iSize := by
  have back := @filemapWriteAndWait_inode stack file.view dirty w
  unfold teadfsFsync
  dsimp only
  split_ifs
  · exact back
  · cases vfsFsync with
    | none => exact back
    | some errno => exact back

theorem teadfsFsync_eq_zero_iff (dirty : List Nat) (w : World) :
    (teadfsFsync stack vfsFsync file dirty w).1 = 0 ↔
      (∀ index ∈ dirty, stack index = 0) ∧ vfsFsync = none := by
  rw [← @filemapWriteAndWait_eq_zero_iff stack file.view dirty w]
  unfold teadfsFsync
  dsimp only
  split_ifs with error
  · exact ⟨fun none => absurd none error, fun none => absurd none.1 error⟩
  · cases vfsFsync with
    | none => exact ⟨fun _ => ⟨not_not.mp error, rfl⟩, fun _ => rfl⟩
    | some errno =>
        refine ⟨fun none => absurd none errno.property.ne, ?_⟩
        rintro ⟨-, none⟩
        cases none

end Fsync

/-- **When mapped stores reach the lower file.** For any set of dirty pages with any bytes in
them: if `teadfs_fsync` returns no error, the lower file holds them below the end of the file
(encrypted by the client and behind the label for an `OFR_DECRYPT` handle), if and only if
`teadfs_fsync` returns an error, because the variable `teadfs_writepage` returns happens to
hold one or the lower file system reports one, or the lower file held them before. -/
theorem mapped_stores_held_iff (cb : DealCb) (stack : Nat → Int) (vfsFsync : Option Errno)
    (file : FileInfo) (dirty : List Nat) (w : World) :
    ((teadfsFsync stack vfsFsync file dirty w).1 = 0 →
        ∀ index ∈ dirty, PageHeld cb file.view
          (teadfsFsync stack vfsFsync file dirty w).2.inode index (w.page file.view index).data) ↔
      (∃ index ∈ dirty, stack index ≠ 0) ∨ vfsFsync ≠ none ∨
        ∀ index ∈ dirty, PageHeld cb file.view w.inode index (w.page file.view index).data := by
  obtain ⟨lower, size⟩ := @teadfsFsync_inode stack vfsFsync file dirty w
  have same : ∀ index page, PageHeld cb file.view (teadfsFsync stack vfsFsync file dirty w).2.inode
      index page ↔ PageHeld cb file.view w.inode index page := by
    intro index page
    rw [PageHeld, PageHeld, pageLength, pageLength, lower, size]
  simp only [same]
  rw [teadfsFsync_eq_zero_iff]
  constructor
  · intro held
    by_cases error : ∃ index ∈ dirty, stack index ≠ 0
    · exact .inl error
    by_cases refused : vfsFsync ≠ none
    · exact .inr (.inl refused)
    refine .inr (.inr (held ⟨?_, not_not.mp refused⟩))
    intro index member
    by_contra held'
    exact error ⟨index, member, held'⟩
  · rintro (⟨index, member, error⟩ | refused | held) ⟨none, synced⟩
    · exact absurd (none index member) error
    · exact absurd synced refused
    · exact held

/-- The first byte of a three-byte file is overwritten through a mapping. -/
def mappedStore : World :=
  (freshWorld [1, 2, 3]).setPage .raw 0 ⟨true, overlay (fun _ => 0) 0 [9, 2, 3]⟩

/-- The variable holds 0, and so `teadfs_fsync` returns 0; the byte is not in the lower file. -/
theorem mapped_store_lost :
    (teadfsFsync (fun _ => 0) none (exampleFile .init) [0] mappedStore).1 = 0 ∧
      (teadfsFsync (fun _ => 0) none (exampleFile .init) [0] mappedStore).2.inode.lower =
        [1, 2, 3] ∧
      ¬ PageHeld (xorCb .init) .raw
        (teadfsFsync (fun _ => 0) none (exampleFile .init) [0] mappedStore).2.inode 0
        (mappedStore.page .raw 0).data := by
  refine ⟨by decide +kernel, by decide +kernel, ?_⟩
  rintro ⟨-, held⟩
  revert held
  decide +kernel

end Teadfs
