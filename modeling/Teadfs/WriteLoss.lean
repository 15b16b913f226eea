/-
# Teadfs.WriteLoss — what `teadfs_write_end` has stored when it reports success

The count of a write passes through the client, whose block may be shorter than the
one it was sent, and through the lower write, which may move less than it was given.
`teadfs_write_end` takes any count that is not negative for all of `copied`. So the
bytes it reports are in the lower file exactly when the client's block is as long as
the one copied and what the lower write left out was there already.

The lower file of a handle opened with `O_APPEND` appends too, wherever it is told to write. So
there what was moved is behind the lower file, and the block is at its place only if that is
how it gets there (`BlockKept`).
-/
import Teadfs.Client

namespace Teadfs

set_option autoImplicit false

open Protocol FileContent Frame

/-- The block `teadfs_write_end` hands on when it reports `n` bytes. -/
def pageBlock (file : FileInfo) (pos n : Nat) (w : World) : List UInt8 :=
  window (w.page file.view (pos / pageCacheSize)).data (pos % pageCacheSize) n

/-- The lower file holds the `n` bytes of `block` at `offset`. -/
def HoldsBlock (offset n : Nat) (block lower : List UInt8) : Prop :=
  block.length = n ∧ slice offset n lower = block

/-- What of a block the lower write does not bring to its place is there: without `O_APPEND` it
brings the first `moved` bytes; with it, those go behind the lower file. -/
def BlockKept (append : Bool) (offset moved : Nat) (block lower : List UInt8) : Prop :=
  if append then ∀ i < block.length, (lower ++ block.take moved)[offset + i]? = block[i]?
  else ∀ i, moved ≤ i → i < block.length → lower[offset + i]? = block[i]?

section WriteEnd

variable {env : Env} {proc : Nat} {file : FileInfo} {pos len copied n : Nat} {w : World}

/-- A positive result is the number of bytes copied, and the block was stored as far as
the lower write moved it. -/
theorem teadfsWriteEnd_reported (positive : 0 < n)
    (reported : (teadfsWriteEnd env proc file pos len copied w).1 = n) :
    (teadfsWriteEnd env proc file pos len copied w).2.inode.lower =
      write 0 (lowerPosition file pos w)
        ((lowerBlock env proc file (pageBlock file pos n w) pos w).take
          ((lowerTransfer env file w).amount
            (lowerBlock env proc file (pageBlock file pos n w) pos w).length)) w.inode.lower := by
  simp only [teadfsWriteEnd] at reported ⊢
  generalize (if copied < len ∧ (w.page file.view (pos / pageCacheSize)).uptodate = false then 0
    else copied) = moved at reported ⊢
  split_ifs at reported ⊢ with failed
  · omega
  · have all : moved = n := Int.ofNat.inj reported
    subst all
    rw [World.setSize_inode]
    exact congrArg InodeInfo.lower (teadfsWriteLower_stored (Int.not_lt.mp failed)).2

/-- **When a reported write is in the lower file.** If `teadfs_write_end` reports
`n > 0` bytes, the lower file holds them (as the client encrypted them, behind the
label, for an `OFR_DECRYPT` handle) if and only if there are `n` of them and those the
lower write did not bring to their place are there (`BlockKept`). -/
theorem reported_write_held_iff (positive : 0 < n)
    (reported : (teadfsWriteEnd env proc file pos len copied w).1 = n) :
    HoldsBlock (lowerOffset file pos) n (lowerBlock env proc file (pageBlock file pos n w) pos w)
        (teadfsWriteEnd env proc file pos len copied w).2.inode.lower ↔
      (lowerBlock env proc file (pageBlock file pos n w) pos w).length = n ∧
        BlockKept file.append (lowerOffset file pos) ((lowerTransfer env file w).amount n)
          (lowerBlock env proc file (pageBlock file pos n w) pos w) w.inode.lower := by
  rw [teadfsWriteEnd_reported positive reported, HoldsBlock]
  refine and_congr_right ?_
  intro whole
  generalize lowerBlock env proc file (pageBlock file pos n w) pos w = block at whole ⊢
  rw [whole]
  subst whole
  unfold BlockKept lowerPosition writtenAt
  split
  · rw [write_end, slice_eq_iff]
  · exact slice_write_take_iff 0 (lowerOffset file pos)
      ((lowerTransfer env file w).amount block.length) block w.inode.lower

end WriteEnd

/-- An empty unlabelled file with the bytes 1 and 2 copied into its first page. -/
def copiedWorld : World := copyToPage (exampleFile .init) 0 [1, 2] (freshWorld [])

/-- A lower write that moves both bytes: the two reported bytes are there, appended or not. -/
theorem full_write_held :
    HoldsBlock 0 2 [1, 2] (teadfsWriteEnd (clientEnv (xorCb .init)) 7 (exampleFile .init) 0 2 2
        copiedWorld).2.inode.lower ∧
      HoldsBlock 0 2 [1, 2] (teadfsWriteEnd (clientEnv (xorCb .init)) 7 (appendFile .init) 0 2 2
        copiedWorld).2.inode.lower := by
  have block : ∀ file ∈ [exampleFile .init, appendFile .init], lowerBlock (clientEnv (xorCb .init)) 7
      file (pageBlock file 0 2 copiedWorld) 0 copiedWorld = [1, 2] := by
    decide +kernel
  constructor
  · have held := (reported_write_held_iff (n := 2) (by decide)
      (by decide +kernel : (teadfsWriteEnd (clientEnv (xorCb .init)) 7 (exampleFile .init) 0 2 2
        copiedWorld).1 = (2 : Nat))).mpr
    rw [block _ (by simp)] at held
    exact held ⟨rfl, fun i moved inside => absurd inside (Nat.not_lt.mpr moved)⟩
  · have held := (reported_write_held_iff (n := 2) (by decide)
      (by decide +kernel : (teadfsWriteEnd (clientEnv (xorCb .init)) 7 (appendFile .init) 0 2 2
        copiedWorld).1 = (2 : Nat))).mpr
    rw [block _ (by simp)] at held
    exact held ⟨rfl, show ∀ i < 2, ([1, 2] : List UInt8)[0 + i]? = [1, 2][i]? by decide⟩

/-- The lower file system moves one byte of each write. -/
def shortEnv : Env := { clientEnv (xorCb .init) with kernelWrite := fun _ => .short 1 }

/-- Two bytes are reported, one is there. -/
theorem short_write_lost :
    (teadfsWriteEnd shortEnv 7 (exampleFile .init) 0 2 2 copiedWorld).1 = 2 ∧
      ¬ HoldsBlock 0 2 [1, 2]
        (teadfsWriteEnd shortEnv 7 (exampleFile .init) 0 2 2 copiedWorld).2.inode.lower := by
  have lower : (teadfsWriteEnd shortEnv 7 (exampleFile .init) 0 2 2 copiedWorld).2.inode.lower =
      [1] := by
    decide +kernel
  rw [lower]
  exact ⟨by decide +kernel, fun held => absurd held.2 (by decide)⟩

end Teadfs
