/-
# Teadfs.Client — clients, and an environment in which one answers

A byte-wise client encrypts each byte by a permutation, whatever its offset; the
shipped application's callbacks (`test/test.cpp`) exclusive-or each byte with 0x13.
`clientEnv` is the environment in which a client with given callbacks answers every
request and the lower file system does what it is asked.
-/
import Mathlib.Logic.Equiv.Defs
import Teadfs.Frames

namespace Teadfs

set_option autoImplicit false

open Protocol

/-- The callbacks of a byte-wise client with the cipher `enc`. -/
def cipherCb (enc : Equiv.Perm UInt8) (onOpen onRelease : Nat → Nat → List UInt8 → Int) :
    DealCb where
  onOpen := onOpen
  onRelease := onRelease
  onRead := fun _ block => block.map enc.symm
  onWrite := fun _ block => block.map enc

/-- The read and write callbacks of `test.cpp` exclusive-or each byte with 0x13. -/
def xorCipher : Equiv.Perm UInt8 where
  toFun b := b ^^^ 0x13
  invFun b := b ^^^ 0x13
  left_inv b := by simp only [UInt8.xor_assoc, UInt8.xor_self, UInt8.xor_zero]
  right_inv b := by simp only [UInt8.xor_assoc, UInt8.xor_self, UInt8.xor_zero]

/-- A client with the callbacks `cb` answers, and the lower file system obliges. -/
def clientEnv (cb : DealCb) : Env where
  send := fun _ packet => .reply ⟨dealTeadfsMsg cb packet, fun _ => 0⟩
  packetAlloc := fun _ => true
  pathAlloc := fun _ => true
  zalloc := fun _ => true
  kernelRead := fun _ => .full
  kernelWrite := fun _ => .full
  dentryOpen := fun _ _ => none
  inodeChangeOk := fun _ => none
  notifyChange := fun _ => none
  grabPage := fun _ => true
  frame := fun _ _ _ => 0

theorem clientEnv_obliging (cb : DealCb) : Obliging (clientEnv cb) :=
  ⟨fun _ => rfl, fun _ => rfl, fun _ _ => rfl, fun _ => rfl, fun _ => rfl⟩

theorem clientEnv_answers (cb : DealCb) : Answers (clientEnv cb) cb :=
  ⟨fun _ => rfl, fun _ => rfl, fun _ _ => ⟨_, rfl⟩⟩

/-- A regular file with nothing cached and a client connected under pid 1. -/
def freshWorld (lower : List UInt8) : World where
  inode :=
    { lower := lower
      iSize := lower.length
      mapping := fun _ _ => ⟨false, fun _ => 0⟩
      isReg := true
      lowerFileCount := 0
      fileDecrypt := false
      lowerRefs := ⟨[], false⟩ }
  chan := ⟨⟨1, 1, true⟩, 0, []⟩

/-- The label of the shipped application: its magic number, then zeros. -/
def shippedLabel : List UInt8 := [0x54, 0x45, 0x41, 0x44] ++ List.replicate 252 0

theorem length_shippedLabel : shippedLabel.length = encryptFileHeaderSize := by
  rw [shippedLabel, List.length_append, List.length_replicate]
  rfl

/-- A name for examples; the mount covers the lower directory. -/
def exampleDentry : Dentry := ⟨[0x2f, 0x74], [0x2f, 0x74], true⟩

/-- A handle with the given access, opened at tick 0. -/
def exampleFile (access : OpenFileResult) : FileInfo := ⟨some 0, access, [0x2f, 0x74], false⟩

/-- The same with `O_APPEND`. -/
def appendFile (access : OpenFileResult) : FileInfo := { exampleFile access with append := true }

/-- The shipped data callbacks; every verdict is `verdict`. -/
def xorCb (verdict : OpenFileResult) : DealCb :=
  cipherCb xorCipher (fun _ _ _ => verdict.code) fun _ _ _ => 1

end Teadfs
