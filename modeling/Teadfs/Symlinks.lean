/-
# Teadfs.Symlinks — following a symbolic link

`teadfs_follow_link` reads the lower target into a zeroed buffer and hands that to
`nd_set_link`; `teadfs_put_link` frees it later, unless it is an error pointer.

The helper returns the length of the target, and its caller takes every number but zero for
a failure. For a target with a byte in it that does no harm: what is skipped then is a store
behind the target, and the buffer was zeroed. An empty target is not skipped, and the store
goes to `len`, which is still `PATH_MAX`; and a failure, which is, leaves the buffer, or
`NULL`, where an error pointer should be (`follow_link_resolves_iff`).
-/
import Mathlib.Data.List.TakeWhile
import Teadfs.Kernel

namespace Teadfs

set_option autoImplicit false

open Frame

/-- The target of a lower symlink. -/
structure LinkTarget where
  bytes : List UInt8
  noNul : 0 ∉ bytes
  short : bytes.length < pathMax

/-- How the lower `readlink` ends: it copies the target, without a terminator, and returns its
length; or it fails, with whatever it has copied by then. -/
inductive LowerReadlink where
  | target (t : LinkTarget)
  | fails (errno : Errno) (copied : List UInt8)

/-- What answers a `teadfs_follow_link`. -/
structure LinkEnv where
  zalloc : Bool
  /-- What the variable `rc` of `teadfs_readlink_lower` holds before it is assigned to. -/
  stack : Int
  readlink : LowerReadlink

/-- The pointer that `nd_set_link` is given. -/
inductive LinkPtr where
  | null
  | error (errno : Errno)
  | buffer

/-- The buffer, and the offsets from its start that were stored to. -/
structure LinkBuffer where
  bytes : Fin pathMax → UInt8
  stores : List Nat

def LinkBuffer.store (off : Nat) (bytes : List UInt8) (b : LinkBuffer) : LinkBuffer :=
  ⟨overlay b.bytes off bytes, b.stores ++ List.range' off bytes.length⟩

/-- `teadfs_zalloc(PATH_MAX)`. -/
def LinkBuffer.zeroed : LinkBuffer := ⟨fun _ => 0, []⟩

/-- `teadfs_readlink_lower`. Without memory it returns an `rc` that nothing was assigned to. -/
def teadfsReadlinkLower (e : LinkEnv) : Int × LinkPtr × LinkBuffer :=
  if e.zalloc = false then (e.stack, .null, .zeroed)
  else
    match e.readlink with
    | .target t => (t.bytes.length, .buffer, LinkBuffer.zeroed.store 0 t.bytes)
    | .fails errno copied => (errno, .buffer, LinkBuffer.zeroed.store 0 (copied.take pathMax))

/-- `teadfs_follow_link`: what it gives to `nd_set_link`, and the buffer behind it. -/
def teadfsFollowLink (e : LinkEnv) : LinkPtr × LinkBuffer :=
  let len := pathMax
  let r := teadfsReadlinkLower e
  if r.1 ≠ 0 then (r.2.1, r.2.2) else (r.2.1, r.2.2.store len [0])

/-- `teadfs_put_link` frees what it is given. -/
def teadfsPutLink : LinkPtr → Bool
  | .error _ => false
  | _ => true

/-- The string in a buffer, if it is terminated there. -/
def cString {n : Nat} (bytes : Fin n → UInt8) : Option (List UInt8) :=
  if 0 ∈ List.ofFn bytes then some ((List.ofFn bytes).takeWhile (· ≠ 0)) else none

/-- The target is handed over as a string, with every store inside the buffer; or, if there is
no memory or no target, an error pointer that is not freed. -/
def Resolves (e : LinkEnv) : Prop :=
  match e.zalloc, e.readlink with
  | true, .target t =>
      (teadfsFollowLink e).1 = .buffer ∧ cString (teadfsFollowLink e).2.bytes = some t.bytes ∧
        ∀ k ∈ (teadfsFollowLink e).2.stores, k < pathMax
  | _, _ => ∃ errno, (teadfsFollowLink e).1 = .error errno ∧
      teadfsPutLink (teadfsFollowLink e).1 = false

theorem ofFn_overlay_zero {n : Nat} {d : List UInt8} (fits : d.length ≤ n) :
    List.ofFn (overlay (fun _ : Fin n => (0 : UInt8)) 0 d) =
      d ++ List.replicate (n - d.length) 0 := by
  apply List.ext_getElem
  · simp [fits]
  · intro i inside _
    rw [List.getElem_ofFn]
    by_cases early : i < d.length
    · rw [overlay_of_lt early, List.getElem_append_left early]
    · rw [List.getElem_append_right (Nat.not_lt.mp early), List.getElem_replicate]
      simp [overlay, Nat.not_lt.mp early]

/-- A zeroed buffer terminates what is copied into it, if there is room. -/
theorem cString_overlay_zero {n : Nat} {d : List UInt8} (noNul : 0 ∉ d) (short : d.length < n) :
    cString (overlay (fun _ : Fin n => (0 : UInt8)) 0 d) = some d := by
  obtain ⟨m, room⟩ : ∃ m, n - d.length = m + 1 := ⟨n - d.length - 1, by omega⟩
  have text : d.takeWhile (· ≠ 0) = d := by
    rw [List.takeWhile_eq_self_iff]
    intro b member
    rw [decide_eq_true_iff]
    rintro rfl
    exact noNul member
  rw [cString, ofFn_overlay_zero short.le, room, List.replicate_succ, if_pos (by simp),
    List.takeWhile_append, text, if_pos rfl]
  simp

theorem teadfsReadlinkLower_target {e : LinkEnv} {t : LinkTarget} (zalloc : e.zalloc = true)
    (read : e.readlink = .target t) :
    teadfsReadlinkLower e =
      ((t.bytes.length : Int), LinkPtr.buffer, LinkBuffer.zeroed.store 0 t.bytes) := by
  simp [teadfsReadlinkLower, zalloc, read]

/-- What is handed over is never an error pointer. -/
theorem teadfsFollowLink_ne_error (e : LinkEnv) (errno : Errno) :
    (teadfsFollowLink e).1 ≠ .error errno := by
  have pointer : (teadfsFollowLink e).1 = (teadfsReadlinkLower e).2.1 := by
    unfold teadfsFollowLink
    dsimp only
    split <;> rfl
  rw [pointer, teadfsReadlinkLower]
  split
  · nofun
  · split <;> nofun

/-- **A symlink resolves to its lower target exactly if there is one, with a byte in it.** -/
theorem follow_link_resolves_iff (e : LinkEnv) :
    Resolves e ↔ e.zalloc = true ∧ ∃ t, e.readlink = .target t ∧ t.bytes ≠ [] := by
  cases zalloc : e.zalloc with
  | false =>
      simp only [Resolves, zalloc, Bool.false_eq_true, false_and, iff_false]
      rintro ⟨errno, pointer, -⟩
      exact teadfsFollowLink_ne_error e errno pointer
  | true =>
      cases read : e.readlink with
      | fails errno copied =>
          simp only [Resolves, zalloc, read, true_and]
          constructor
          · rintro ⟨errno, pointer, -⟩
            exact absurd pointer (teadfsFollowLink_ne_error e errno)
          · rintro ⟨t, target, -⟩
            cases target
      | target t =>
          have lower := teadfsReadlinkLower_target zalloc read
          simp only [Resolves, zalloc, read, true_and, LowerReadlink.target.injEq, exists_eq_left']
          by_cases empty : t.bytes = []
          · -- the store behind the end of the buffer
            have followed : (teadfsFollowLink e).2.stores = [pathMax] := by
              rw [teadfsFollowLink, lower, empty]
              rfl
            simp [followed, empty]
          · have length : (t.bytes.length : Int) ≠ 0 := by
              simpa using empty
            have followed : teadfsFollowLink e =
                (.buffer, LinkBuffer.zeroed.store 0 t.bytes) := by
              rw [teadfsFollowLink, lower]
              exact if_pos length
            simp only [followed, empty, ne_eq, not_false_eq_true, iff_true, true_and]
            refine ⟨cString_overlay_zero t.noNul t.short, ?_⟩
            intro k stored
            have inside : k < 0 + t.bytes.length := (List.mem_range'_1.mp stored).2
            have short := t.short
            omega

/-- A failed lower `readlink` is handed over as a buffer with an empty string in it, and an
empty target is stored behind the buffer. -/
theorem failed_readlink_presented_as_empty :
    ¬ Resolves ⟨true, 0, .fails ⟨eio, by decide⟩ []⟩ ∧
      ¬ Resolves ⟨true, 0, .target ⟨[], by decide, by decide⟩⟩ := by
  constructor
  · rintro ⟨errno, pointer, -⟩
    cases pointer
  · rintro ⟨-, -, inside⟩
    exact absurd (inside pathMax (by simp [teadfsFollowLink, teadfsReadlinkLower,
      LinkBuffer.store])) (Nat.lt_irrefl _)

end Teadfs
