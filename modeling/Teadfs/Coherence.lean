/-
# Teadfs.Coherence — two page caches over one lower file

A file has two mappings over the same lower bytes: its own, for `OFR_ENCRYPT` and
`OFR_INIT` handles, and `i_decrypt`, for `OFR_DECRYPT` handles. An Uptodate page is
`Coherent` if it holds what reading it afresh would give. A write through `i_decrypt`
ends with `invalidate_remote_inode`, which drops every page of the other mapping; nothing
does the same for `i_decrypt`. A raw write, and the zeros with which a file is extended,
go under the pages of `i_decrypt` and leave them as they are.

`Careful` says where that does no harm, from the state before each operation: no byte is
stored under an Uptodate page that the operation does not itself go through. Then both
mappings stay coherent, in every state (`careful_run_coherent`).
-/
import Teadfs.ReportedSize
import Teadfs.SizeChange
import Teadfs.Views

namespace Teadfs

set_option autoImplicit false

open Protocol FileContent Frame Relation

/-! ## What a view shows -/

/-- No Uptodate page of the view holds, below the end of the file, another byte than
reading the page afresh would give. -/
def Coherent (enc : Equiv.Perm UInt8) (view : View) (w : World) : Prop :=
  ∀ (index : Nat) (i : Fin pageCacheSize) (byte : UInt8), (w.page view index).uptodate = true →
    index * pageCacheSize + i < w.inode.iSize →
    fresh enc view w (index * pageCacheSize + i) = some byte → (w.page view index).data i = byte

/-- Nothing is cached yet, and the size is the lower one: a file as lookup finds it. -/
def Uncached (w : World) : Prop :=
  (∀ view index, (w.page view index).uptodate = false) ∧ w.inode.iSize = w.inode.lower.length

/-! ## Operations -/

/-- What is done to one file: its handles are opened, used and released in any order. -/
inductive CacheOp where
  | open (proc : Nat) (flags : OpenFlags) (fileId : Nat)
  | release (proc : Nat) (file : FileInfo) (fileId : Nat)
  | read (proc : Nat) (file : FileInfo) (pos count : Nat)
  | write (proc : Nat) (file : FileInfo) (pos : Nat) (data : List UInt8)
  | setSize (proc : Nat) (file : FileInfo) (n : Nat)

namespace CacheOp

def run (env : Env) (dentry : Dentry) : CacheOp → World → World
  | .open proc flags fileId, w => (teadfsOpen env proc dentry flags fileId w).2
  | .release proc file fileId, w => teadfsRelease env proc dentry file fileId w
  | .read proc file pos count, w => (teadfsAioReadUpdateAtime env proc file pos count w).2.2
  | .write proc file pos data, w => (teadfsAioWrite env proc dentry file pos data w).2
  | .setSize proc _ n, w => (teadfsSetattr env proc dentry (sizeChange n true) w).2

/-- The operation is successful. What the count of a read is makes no difference. -/
def Succeeds (env : Env) (dentry : Dentry) (w : World) : CacheOp → Prop
  | .open _ _ _ => True
  | .release _ _ _ => True
  | .read proc file _ _ => Served proc file w
  | .write proc file pos data =>
      Served proc file w ∧ (teadfsAioWrite env proc dentry file pos data w).1 = data.length
  | .setSize proc _ n => (teadfsSetattr env proc dentry (sizeChange n true) w).1 = 0

instance (env : Env) (dentry : Dentry) (w : World) (op : CacheOp) :
    Decidable (op.Succeeds env dentry w) :=
  match op with
  | .open _ _ _ => inferInstanceAs (Decidable True)
  | .release _ _ _ => inferInstanceAs (Decidable True)
  | .read proc file _ _ => inferInstanceAs (Decidable (Served proc file w))
  | .write _ _ _ _ => inferInstanceAs (Decidable (_ ∧ _))
  | .setSize _ _ _ => inferInstanceAs (Decidable (_ = _))

/-- The view an operation is made through. -/
def view : CacheOp → Option View
  | .open _ _ _ => none
  | .release _ _ _ => none
  | .read _ file _ _ => some file.view
  | .write _ file _ _ => some file.view
  | .setSize _ file _ => some file.view

end CacheOp

/-- The lower bytes from `lo` up to `hi` are under no Uptodate page of the view. -/
def Unmapped (view : View) (lo hi : Nat) (w : World) : Prop :=
  ∀ index, (w.page view index).uptodate = true →
    hi ≤ view.label + index * pageCacheSize ∨ view.label + (index + 1) * pageCacheSize ≤ lo

/-- What `teadfs_write` adds to the offset of an extension's zeros, under the verdict it
asks for. -/
def growthLabel (env : Env) (proc : Nat) (dentry : Dentry) (w : World) : Nat :=
  if .ofCode (teadfsRequestOpenPath env proc dentry w).1 = OpenFileResult.decrypt then
    encryptFileHeaderSize
  else 0

/-- The operation stores no byte under an Uptodate page that it does not go through, nor
one that its own page does not hold: a write is contiguous and goes to its place, a raw one
is not under `i_decrypt`, and an extension, from the lower end or the first zero on, is under
nothing. -/
def CacheOp.Careful (env : Env) (dentry : Dentry) (w : World) : CacheOp → Prop
  | .open _ _ _ => True
  | .release _ _ _ => True
  | .read _ _ _ _ => True
  | .write _ file pos data => data ≠ [] →
      Contiguous file.view (writePos file pos w) w ∧ InPlace file (writePos file pos w) w ∧
        (file.view = .raw →
          Unmapped .decrypted (writePos file pos w) (writePos file pos w + data.length) w)
  | .setSize proc _ n => w.inode.iSize < n → ∀ view,
      Unmapped view
        (min w.inode.lower.length (w.inode.iSize + growthLabel env proc dentry w))
        (n + growthLabel env proc dentry w) w

/-! ## Pages and lower bytes -/

section Views

variable {enc : Equiv.Perm UInt8} {view : View} {w w' : World}

theorem Matches.coherent (kept : Matches enc view w) : Coherent enc view w :=
  fun index i byte uptodate _ read => kept index i byte uptodate read

/-- A block stored under no Uptodate page of a view, gap included, leaves it matching. -/
theorem Matches.stored (kept : Matches enc view w)
    (pages : ∀ index, w'.page view index = w.page view index) {offset : Nat} {block : List UInt8}
    (lower : w'.inode.lower = write 0 offset block w.inode.lower)
    (away : Unmapped view (min w.inode.lower.length offset) (offset + block.length) w) :
    Matches enc view w' := by
  refine kept.frame pages ?_
  intro index i byte uptodate read
  have inPage := i.isLt
  have range := away index uptodate
  rw [Nat.succ_mul] at range
  rw [fresh, lower, getElem?_write] at read
  rw [fresh]
  grind

end Views

/-- Both views match, and `i_size` is not beyond the lower file. -/
structure InStep (enc : Equiv.Perm UInt8) (w : World) : Prop where
  pages : ∀ view, Matches enc view w
  size : w.inode.iSize ≤ w.inode.lower.length

/-- The lower file, the size and the pages are the same. -/
structure SameFile (w w' : World) : Prop where
  lower : w'.inode.lower = w.inode.lower
  size : w'.inode.iSize = w.inode.iSize
  mapping : w'.inode.mapping = w.inode.mapping

theorem SameFile.of_inode {w w' : World} (same : w'.inode = w.inode) : SameFile w w' :=
  ⟨congrArg _ same, congrArg _ same, congrArg _ same⟩

theorem SameFile.matches {enc : Equiv.Perm UInt8} {view : View} {w w' : World}
    (same : SameFile w w') (kept : Matches enc view w) : Matches enc view w' := by
  refine kept.frame (fun index => by rw [World.page, same.mapping]; rfl) ?_
  intro index i byte _ read
  rwa [fresh_congr same.lower] at read

/-- Nothing else of the inode matters. -/
theorem InStep.congr {enc : Equiv.Perm UInt8} {w w' : World} (kept : InStep enc w)
    (same : SameFile w w') : InStep enc w' := by
  refine ⟨fun view => same.matches (kept.pages view), ?_⟩
  rw [same.lower, same.size]
  exact kept.size

theorem teadfsOpen_sameFile (env : Env) (proc : Nat) (dentry : Dentry) (flags : OpenFlags)
    (fileId : Nat) (w : World) : SameFile w (teadfsOpen env proc dentry flags fileId w).2 := by
  rcases teadfsOpen_cases env proc dentry fileId w flags with
    ⟨info, -, -, opened⟩ | ⟨errno, decrypt, count, -, failed, -⟩
  · constructor <;> rw [opened]
  · constructor <;> rw [failed]

theorem teadfsRelease_sameFile (env : Env) (proc : Nat) (dentry : Dentry) (file : FileInfo)
    (fileId : Nat) (w : World) : SameFile w (teadfsRelease env proc dentry file fileId w) := by
  obtain ⟨count, refs, released⟩ := teadfsRelease_sizes env proc dentry file fileId w
  constructor <;> rw [released]

section Handles

variable {env : Env} {enc : Equiv.Perm UInt8} {onOpen onRelease : Nat → Nat → List UInt8 → Int}
  {proc : Nat} {file : FileInfo} {w w' : World}

/-- The kernel's read fills pages and changes nothing else. -/
theorem genericReadLoop_matches (obliging : Obliging env)
    (answers : Answers env (cipherCb enc onOpen onRelease)) (served : Served proc file w)
    (fuel pos count : Nat) :
    (genericReadLoop env proc file fuel pos count w).2.2.inode.lower = w.inode.lower ∧
      (genericReadLoop env proc file fuel pos count w).2.2.inode.iSize = w.inode.iSize ∧
      ∀ view, Matches enc view w →
        Matches enc view (genericReadLoop env proc file fuel pos count w).2.2 := by
  induction fuel generalizing pos count w with
  | zero => exact ⟨rfl, rfl, fun _ kept => kept⟩
  | succ fuel ih =>
      obtain ⟨filled, fill⟩ : ∃ filled : Int × World,
          filled = if (w.page file.view (pos / pageCacheSize)).uptodate then (0, w)
            else teadfsReadpage env proc file (pos / pageCacheSize) w := ⟨_, rfl⟩
      have ready : filled.2.inode.lower = w.inode.lower ∧ filled.2.inode.iSize = w.inode.iSize ∧
          (∀ view, Matches enc view w → Matches enc view filled.2) ∧
          Served proc file filled.2 := by
        subst fill
        split
        · exact ⟨rfl, rfl, fun _ kept => kept, served⟩
        · obtain ⟨-, -, pages⟩ := fillPage_matches obliging answers served (pos / pageCacheSize)
          exact ⟨fillPage_lower .., fillPage_iSize .., pages,
            served.steady (fillPage_steady env proc file _ w)⟩
      obtain ⟨lower, size, pages, still⟩ := ready
      simp only [genericReadLoop, ← fill]
      split
      · exact ⟨rfl, rfl, fun _ kept => kept⟩
      · split
        · exact ⟨lower, size, pages⟩
        · obtain ⟨restLower, restSize, restPages⟩ := ih still
            (pos + min (min (pageCacheSize - pos % pageCacheSize) count) (w.inode.iSize - pos))
            (count - min (min (pageCacheSize - pos % pageCacheSize) count) (w.inode.iSize - pos))
          exact ⟨restLower.trans lower, restSize.trans size,
            fun view kept => restPages view (pages view kept)⟩

theorem genericReadLoop_inStep (obliging : Obliging env)
    (answers : Answers env (cipherCb enc onOpen onRelease)) (served : Served proc file w)
    (kept : InStep enc w) (fuel pos count : Nat) :
    InStep enc (genericReadLoop env proc file fuel pos count w).2.2 := by
  obtain ⟨lower, size, pages⟩ := genericReadLoop_matches obliging answers served fuel pos count
  refine ⟨fun view => pages view (kept.pages view), ?_⟩
  rw [lower, size]
  exact kept.size

/-! ## Writes -/

/-- A block does not get through a handle opened for the encrypted view. -/
theorem genericPerformWrite_encrypt (env : Env) (proc : Nat) (dentry : Dentry)
    (encrypt : file.access = .encrypt) (pos : Nat) {data : List UInt8} (block : data ≠ [])
    (w : World) : (genericPerformWrite env proc dentry file data.length pos data w).1 < 0 := by
  cases data with
  | nil => exact absurd rfl block
  | cons byte rest =>
      have refused := fun pos data copied =>
        (writeChunk_encrypt env proc dentry encrypt pos data copied w).1
      simp only [List.length_cons, genericPerformWrite, List.isEmpty_cons, Bool.false_eq_true,
        if_false, refused, if_true]

/-- A handle through which a block was written was not opened for the encrypted view. -/
theorem teadfsAioWrite_writable {dentry : Dentry} {pos : Nat} {data : List UInt8}
    (block : data ≠ []) (count : (teadfsAioWrite env proc dentry file pos data w).1 = data.length) :
    file.access ≠ .encrypt := by
  intro encrypt
  have refused := genericPerformWrite_encrypt env proc dentry encrypt (writePos file pos w) block w
  simp only [teadfsAioWrite] at count
  omega

/-- Dropping the inode's own pages leaves nothing to be stale there. -/
theorem invalidateRemoteInode_matches (env : Env) {view : View}
    (kept : view = .decrypted → Matches enc view w) :
    Matches enc view (invalidateRemoteInode env w) := by
  cases view with
  | raw =>
      intro index i byte uptodate
      simp [invalidateRemoteInode, World.page] at uptodate
  | decrypted => exact kept rfl

theorem invalidateRemoteInode_inStep (env : Env) (kept : Matches enc .decrypted w)
    (size : w.inode.iSize ≤ w.inode.lower.length) : InStep enc (invalidateRemoteInode env w) := by
  refine ⟨?_, size⟩
  intro view
  refine invalidateRemoteInode_matches env ?_
  rintro rfl
  exact kept

/-- A careful write keeps both views: its own page by page, the raw one by dropping it. -/
theorem teadfsAioWrite_inStep (dentry : Dentry) (obliging : Obliging env)
    (answers : Answers env (cipherCb enc onOpen onRelease)) {pos : Nat} {data : List UInt8}
    (succeeds : (CacheOp.write proc file pos data).Succeeds env dentry w)
    (careful : (CacheOp.write proc file pos data).Careful env dentry w) (kept : InStep enc w) :
    InStep enc (teadfsAioWrite env proc dentry file pos data w).2 := by
  obtain ⟨served, count⟩ := succeeds
  by_cases block : data = []
  · subst block
    simp only [teadfsAioWrite, List.length_nil, genericPerformWrite]
    split
    · exact invalidateRemoteInode_inStep env (kept.pages .decrypted) kept.size
    · exact kept
  · have writable := teadfsAioWrite_writable block count
    obtain ⟨contiguous, inPlace, away⟩ := careful block
    simp only [teadfsAioWrite]
    generalize writePos file pos w = pos at contiguous inPlace away ⊢
    have stored := genericPerformWrite_stored obliging answers dentry served writable
      (kept.pages file.view) block contiguous inPlace (Nat.le_refl _)
    generalize genericPerformWrite env proc dentry file data.length pos data w = r at stored ⊢
    by_cases decrypt : file.access = .decrypt
    · rw [if_pos decrypt]
      rw [view_of_decrypt decrypt] at stored
      exact invalidateRemoteInode_inStep env stored.pages stored.size.le
    · rw [if_neg decrypt]
      have raw := view_of_raw decrypt
      rw [raw] at stored contiguous
      refine ⟨?_, stored.size.le⟩
      intro view
      cases view with
      | raw => exact stored.pages
      | decrypted =>
          refine (kept.pages .decrypted).stored
            (fun index => stored.others .decrypted index (by decide)) stored.lower ?_
          have start : min w.inode.lower.length (View.raw.label + pos) = pos := by
            rw [View.label, Nat.zero_add]
            exact Nat.min_eq_right contiguous.1
          rw [start, View.label, Nat.zero_add, List.length_map]
          exact away raw

end Handles

/-! ## Size changes -/

section SizeChanges

variable {env : Env} {enc : Equiv.Perm UInt8} {onOpen onRelease : Nat → Nat → List UInt8 → Int}
  {proc : Nat} {dentry : Dentry} {w w' : World}

/-- Under the verdict of the moment, zeros arrive `growthLabel` bytes further on, and
encrypted if there is a label. -/
theorem stores_growthLabel (whole : WholeWrites env)
    (answers : Answers env (cipherCb enc onOpen onRelease)) :
    Stores env proc dentry (Steady w) (growthLabel env proc dentry w)
      (if growthLabel env proc dentry w = 0 then 0 else enc 0) := by
  have header : encryptFileHeaderSize ≠ 0 := by decide
  by_cases decrypt : .ofCode (teadfsRequestOpenPath env proc dentry w).1 = OpenFileResult.decrypt
  · have connected := connected_of_decrypt decrypt
    have label : growthLabel env proc dentry w = encryptFileHeaderSize := if_pos decrypt
    rw [label, if_neg header]
    refine ⟨fun same good => good.trans same, ?_⟩
    intro w₁ w₂ k offset ref good same page success
    have access := decrypt
    rw [← teadfsRequestOpenPath_same answers good] at access
    have word : (List.replicate k (0 : UInt8)).length < 2 ^ 32 := by
      have : pageCacheSize < 2 ^ 32 := by decide
      rw [List.length_replicate]
      omega
    rw [teadfsWriteLower_decrypted_stored whole success answers access (.of_plain rfl offset w₂)
      ((good.trans same).connected connected) word fun _ _ => List.length_map _]
    simp [cipherCb]
  · have label : growthLabel env proc dentry w = 0 := if_neg decrypt
    rw [label, if_pos rfl]
    refine ⟨fun same good => good.trans same, ?_⟩
    intro w₁ w₂ k offset ref good same page success
    have access := decrypt
    rw [← teadfsRequestOpenPath_same answers good] at access
    rw [teadfsWriteLower_raw_stored whole success access (.of_plain rfl offset w₂), Nat.add_zero]

/-- A cut to `n` bytes, all of which were there, shows nothing new. -/
theorem fresh_resize {view : View} {n p : Nat} {byte : UInt8} (cut : n ≤ w.inode.lower.length)
    (lower : w'.inode.lower = resize 0 n w.inode.lower)
    (read : fresh enc view w' p = some byte) :
    view.label + p < n ∧ fresh enc view w p = some byte := by
  rw [fresh, lower, getElem?_resize] at read
  rw [fresh]
  grind

/-- Zeros appended under no Uptodate page keep both views. -/
theorem InStep.grown {n shift : Nat} {z : UInt8} (kept : InStep enc w) (grows : w.inode.iSize < n)
    (grown : w'.inode =
      { w.inode with
        lower := write 0 (w.inode.iSize + shift) (List.replicate (n - w.inode.iSize) z)
          w.inode.lower
        iSize := n })
    (away : ∀ view, Unmapped view (min w.inode.lower.length (w.inode.iSize + shift)) (n + shift) w) :
    InStep enc w' := by
  have block : List.replicate (n - w.inode.iSize) z ≠ [] := by
    simp
    omega
  have lower := congrArg InodeInfo.lower grown
  refine ⟨?_, ?_⟩
  · intro view
    refine (kept.pages view).stored (fun index => by rw [World.page, grown]; rfl) lower ?_
    have last : w.inode.iSize + shift + (List.replicate (n - w.inode.iSize) z).length =
        n + shift := by
      rw [List.length_replicate]
      omega
    rw [last]
    exact away view
  · rw [lower, congrArg InodeInfo.iSize grown, length_write 0 _ _ block, List.length_replicate]
    dsimp only
    omega

/-- A cut of the lower file and of the inode's own pages keeps both views; `i_decrypt` is
not cut, but nothing is left to read there. -/
theorem InStep.cut {n : Nat} (kept : InStep enc w) (shrinks : n < w.inode.iSize)
    (cut : w'.inode =
      { (truncateSetsize env n w.tick).inode with lower := resize 0 n w.inode.lower }) :
    InStep enc w' := by
  have lower := congrArg InodeInfo.lower cut
  have there : n ≤ w.inode.lower.length := shrinks.le.trans kept.size
  refine ⟨?_, ?_⟩
  · intro view
    cases view with
    | raw =>
        intro index i byte uptodate read
        obtain ⟨below, old⟩ := fresh_resize there lower read
        rw [View.label, Nat.zero_add] at below
        have page : w'.page .raw index =
            truncatePage env w.tick.chan.clock n index (w.page .raw index) := by
          rw [World.page, cut]
          simp [truncateSetsize, World.page]
        have reaches : ¬ n ≤ index * pageCacheSize := by omega
        rw [page, truncatePage, if_neg reaches] at uptodate ⊢
        dsimp only at uptodate ⊢
        rw [if_neg (by omega)]
        exact kept.pages .raw index i byte uptodate old
    | decrypted =>
        refine (kept.pages .decrypted).frame (fun index => by rw [World.page, cut]; rfl) ?_
        intro index i byte uptodate read
        exact (fresh_resize there lower read).2
  · rw [lower, congrArg InodeInfo.iSize cut, length_resize]
    exact Nat.le_refl n

/-- A careful size change keeps both views. -/
theorem teadfsSetattr_inStep (whole : WholeWrites env)
    (answers : Answers env (cipherCb enc onOpen onRelease)) {file : FileInfo} {n : Nat}
    (succeeds : (CacheOp.setSize proc file n).Succeeds env dentry w)
    (careful : (CacheOp.setSize proc file n).Careful env dentry w) (kept : InStep enc w) :
    InStep enc (teadfsSetattr env proc dentry (sizeChange n true) w).2 := by
  rcases teadfsSetattr_inode (stores_growthLabel whole answers) (Steady.refl w) succeeds with
    ⟨-, same⟩ | ⟨grows, grown⟩ | ⟨shrinks, cut⟩
  · exact kept.congr (.of_inode same)
  · exact kept.grown grows grown (careful grows)
  · exact kept.cut shrinks cut

end SizeChanges

/-! ## Runs -/

/-- One careful successful operation. -/
def CarefulStep (env : Env) (dentry : Dentry) (w w' : World) : Prop :=
  ∃ op : CacheOp, (op.Succeeds env dentry w ∧ op.Careful env dentry w) ∧ w' = op.run env dentry w

theorem Uncached.inStep {enc : Equiv.Perm UInt8} {w : World} (found : Uncached w) :
    InStep enc w where
  pages view index i byte uptodate _ := by
    rw [found.1 view index] at uptodate
    cases uptodate
  size := found.2.le

section Runs

variable {env : Env} {enc : Equiv.Perm UInt8} {onOpen onRelease : Nat → Nat → List UInt8 → Int}
  {dentry : Dentry} {w w' : World}

/-- One careful step keeps both views. -/
theorem CarefulStep.inStep (obliging : Obliging env)
    (answers : Answers env (cipherCb enc onOpen onRelease)) (step : CarefulStep env dentry w w')
    (kept : InStep enc w) : InStep enc w' := by
  obtain ⟨op, ⟨succeeds, careful⟩, rfl⟩ := step
  cases op with
  | «open» proc flags fileId => exact kept.congr (teadfsOpen_sameFile ..)
  | release proc file fileId => exact kept.congr (teadfsRelease_sameFile ..)
  | read proc file pos count =>
      exact genericReadLoop_inStep obliging answers succeeds kept count pos count
  | write proc file pos data =>
      exact teadfsAioWrite_inStep dentry obliging answers succeeds careful kept
  | setSize proc file n =>
      exact teadfsSetattr_inStep (fun t n => by rw [obliging.kernelWrite t]; nofun) answers
        succeeds careful kept

end Runs

/-- Three bytes behind the shipped label, as lookup finds them. -/
def cachedFile : World := freshWorld (shippedLabel ++ [1, 2, 3].map xorCipher)

theorem cachedFile_uncached : Uncached cachedFile := ⟨fun _ _ => rfl, rfl⟩

/-- The state after an operation, for a client that decrypts for everyone. -/
def afterOp (w : World) (op : CacheOp) : World :=
  op.run (clientEnv (xorCb .decrypt)) exampleDentry w

/-- A raw write into the label, a decrypting read, a decrypting write, and a cut. -/
def carefulOps : List CacheOp :=
  [.write 8 (exampleFile .init) 0 [9], .read 7 (exampleFile .decrypt) 0 3,
    .write 7 (exampleFile .decrypt) 1 [4, 5], .setSize 7 (exampleFile .decrypt) 258]

end Teadfs
