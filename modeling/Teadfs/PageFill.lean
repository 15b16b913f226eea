/-
# Teadfs.PageFill — what filling a page leaves in it

`teadfs_readpage` and `treadfs_write_begin` fill a page alike. `teadfs_read_lower` puts into
the frame what the lower file system hands over, and for an `OFR_DECRYPT` handle the
client's block over that (`pageDelivered`); any count that is not an error makes the page
Uptodate. Nothing clears the rest of the frame. So a page holds what the file has there,
and zeros behind the end, exactly if a whole page of that was delivered, which is never so
for the page in which the file ends (`page_determined_iff`).
-/
import Teadfs.Views

namespace Teadfs

set_option autoImplicit false

open Protocol FileContent Frame

/-- What a fill puts into the frame of page `index`, if it does not fail. -/
def pageDelivered (env : Env) (proc : Nat) (file : FileInfo) (index : Nat) (w : World) :
    Option (List UInt8) :=
  let offset := lowerOffset file (index * pageCacheSize)
  match file.lowerFile, (kernelRead env offset pageCacheSize w).1 with
  | some _, .ok bytes =>
      if file.access = .decrypt then
        let block := (teadfsRequestRead env proc offset bytes pageCacheSize w.tick).2.1
        some (block ++ bytes.drop block.length)
      else some bytes
  | _, _ => none

/-- The lower file system hands over no more than it is asked for. -/
theorem length_kernelRead {env : Env} {offset size : Nat} {w : World} {bytes : List UInt8}
    (read : (kernelRead env offset size w).1 = .ok bytes) : bytes.length ≤ size := by
  have asked : (slice offset size w.inode.lower).length ≤ size := by
    rw [length_slice]
    exact Nat.min_le_left ..
  unfold kernelRead at read
  split at read
  · cases read
  · cases read
    rw [List.length_take]
    omega

/-- The block of a read upcall is no longer than its buffer. -/
theorem length_requestRead (env : Env) (proc offset : Nat) (src : List UInt8) (dstSize : Nat)
    (w : World) : (teadfsRequestRead env proc offset src dstSize w).2.1.length ≤ dstSize := by
  rcases requestBlock_cases env proc .read (.read 0 offset ⟨src.length, sizeofPacketInfo⟩) src
    dstSize w with ⟨-, empty⟩ | ⟨-, fits⟩
  · rw [teadfsRequestRead, empty]
    exact Nat.zero_le _
  · exact fits

section Fill

variable (env : Env) (proc : Nat) (file : FileInfo) (index : Nat) (w : World)

/-- A read comes back with an error, or lays what is delivered over the frame. -/
theorem teadfsReadLower_delivered (frame : FrameBytes) :
    (pageDelivered env proc file index w = none ∧
        (teadfsReadLower env proc file frame (index * pageCacheSize) w).1 < 0) ∨
      ∃ bytes, pageDelivered env proc file index w = some bytes ∧ bytes.length ≤ pageCacheSize ∧
        0 ≤ (teadfsReadLower env proc file frame (index * pageCacheSize) w).1 ∧
        (teadfsReadLower env proc file frame (index * pageCacheSize) w).2.1 =
          overlay frame 0 bytes := by
  have place : (if file.access = .decrypt then index * pageCacheSize + encryptFileHeaderSize
      else index * pageCacheSize) = lowerOffset file (index * pageCacheSize) := rfl
  have world := kernelRead_world env (lowerOffset file (index * pageCacheSize)) pageCacheSize w
  cases opened : file.lowerFile with
  | none =>
      refine .inl ⟨by simp only [pageDelivered, opened], ?_⟩
      simp only [teadfsReadLower, opened]
      decide
  | some ref =>
      simp only [teadfsReadLower, pageDelivered, opened, place]
      cases read : kernelRead env (lowerOffset file (index * pageCacheSize)) pageCacheSize w with
      | mk result w' =>
          rw [read] at world
          dsimp only at world
          subst world
          cases result with
          | error errno => exact .inl ⟨rfl, errno.property⟩
          | ok bytes =>
              have short := length_kernelRead (congrArg Prod.fst read)
              have block := length_requestRead env proc
                (lowerOffset file (index * pageCacheSize)) bytes pageCacheSize w.tick
              right
              dsimp only
              split
              · refine ⟨_, rfl, ?_, ?_, ?_⟩
                · rw [List.length_append, List.length_drop]
                  omega
                · split
                  · exact Int.natCast_nonneg _
                  · rename_i something
                    exact (Int.not_le.mp something).le
                · rw [← overlay_overlay_drop]
                  split
                  · rename_i nothing
                    rw [show (teadfsRequestRead env proc
                      (lowerOffset file (index * pageCacheSize)) bytes pageCacheSize w.tick).2.1 = []
                      from requestBlock_nonpos _ _ _ _ _ _ _ nothing, overlay_nil]
                  · rfl
              · exact ⟨bytes, rfl, short, Int.natCast_nonneg _, rfl⟩

/-- A fill fails, or leaves what is delivered over what the frame held. -/
theorem fillPage_delivered :
    (pageDelivered env proc file index w = none ∧ (fillPage env proc file index w).1 < 0 ∧
        ((fillPage env proc file index w).2.page file.view index).uptodate = false) ∨
      ∃ bytes, pageDelivered env proc file index w = some bytes ∧ bytes.length ≤ pageCacheSize ∧
        (fillPage env proc file index w).1 = 0 ∧
        (fillPage env proc file index w).2.page file.view index =
          ⟨true, overlay (w.page file.view index).data 0 bytes⟩ := by
  rcases teadfsReadLower_delivered env proc file index w (w.page file.view index).data with
    ⟨none, negative⟩ | ⟨bytes, some, fits, count, data⟩
  · refine .inl ⟨none, ?_, ?_⟩
    · simp only [fillPage, negative.not_gt, if_false]
      exact negative
    · simp only [fillPage, negative.not_gt, if_false, World.page_setPage_self, negative.ne,
        decide_false]
  · obtain ⟨n, read⟩ := Int.eq_ofNat_of_zero_le count
    obtain ⟨rc, page⟩ := fillPage_of_read env proc file index w read
    exact .inr ⟨bytes, some, fits, rc, by rw [page, data]⟩

end Fill

/-! ## Whole pages -/

instance nontrivialUInt8 : Nontrivial UInt8 := ⟨⟨0, 1, by decide⟩⟩

/-- A page of a content, with zeros behind its end. -/
def pageOf (content : List UInt8) (index : Nat) : FrameBytes :=
  fun i => (content[index * pageCacheSize + i]?).getD 0

/-- Whatever the frame of page `index` held before, a fill that makes it Uptodate leaves the
page of `content` in it. -/
def Determines (fill : World → Int × World) (file : FileInfo) (index : Nat)
    (content : List UInt8) (w : World) : Prop :=
  ∀ frame : FrameBytes,
    let w' := (fill (w.setPage file.view index ⟨false, frame⟩)).2
    (w'.page file.view index).uptodate = true →
      (w'.page file.view index).data = pageOf content index

/-- An upcall does not look at the inode. -/
theorem exchange_reply_congr {w w' : World} (chan : w'.chan = w.chan) (env : Env) (proc : Nat)
    (type : MsgType) (data : PacketData) (payload : List UInt8) :
    (exchange env proc type data payload w').reply =
      (exchange env proc type data payload w).reply := by
  simp only [exchange, chan]
  split_ifs
  · rfl
  · rfl
  · rfl
  · split
    · rfl
    · rfl
    · split <;> rfl

theorem requestBlock_block_congr {w w' : World} (chan : w'.chan = w.chan) (env : Env) (proc : Nat)
    (type : MsgType) (data : PacketData) (src : List UInt8) (dstSize : Nat) :
    (requestBlock env proc type data src dstSize w').2.1 =
      (requestBlock env proc type data src dstSize w).2.1 := by
  simp only [requestBlock, exchange_reply_congr chan]
  split <;> rfl

/-- What is delivered does not depend on any page. -/
theorem pageDelivered_congr {w w' : World} (lower : w'.inode.lower = w.inode.lower)
    (chan : w'.chan = w.chan) (env : Env) (proc : Nat) (file : FileInfo) (index : Nat) :
    pageDelivered env proc file index w' = pageDelivered env proc file index w := by
  have read : ∀ offset size, (kernelRead env offset size w').1 =
      (kernelRead env offset size w).1 := by
    intro offset size
    simp only [kernelRead, lower, chan]
    split <;> rfl
  have ticked : w'.tick.chan = w.tick.chan := by
    simp only [World.tick, chan]
  simp only [pageDelivered, read, teadfsRequestRead, requestBlock_block_congr ticked]

theorem fillPage_determines_iff (env : Env) (proc : Nat) (file : FileInfo) (index : Nat)
    (content : List UInt8) (w : World) :
    Determines (fillPage env proc file index) file index content w ↔
      pageDelivered env proc file index w = none ∨
        pageDelivered env proc file index w = some (List.ofFn (pageOf content index)) := by
  have same : ∀ frame,
      pageDelivered env proc file index (w.setPage file.view index ⟨false, frame⟩) =
      pageDelivered env proc file index w := by
    intro frame
    exact pageDelivered_congr (World.setPage_lower ..) (World.setPage_chan ..) env proc file index
  constructor
  · intro determined
    cases brought : pageDelivered env proc file index w with
    | none => exact .inl rfl
    | some bytes =>
        right
        have fits : bytes.length ≤ pageCacheSize := by
          rcases fillPage_delivered env proc file index w with ⟨none, -, -⟩ | ⟨_, some, fits, -, -⟩
          · rw [none] at brought
            cases brought
          · rw [some] at brought
            cases brought
            exact fits
        have whole : bytes = List.ofFn (pageOf content index) := by
          refine (overlay_eq_iff fits).mp ?_
          intro frame
          have filled := determined frame
          rcases fillPage_delivered env proc file index
            (w.setPage file.view index ⟨false, frame⟩) with ⟨none, -, -⟩ | ⟨_, some, -, -, page⟩
          · rw [same, brought] at none
            cases none
          · rw [same, brought] at some
            cases some
            rw [World.page_setPage_self] at page
            dsimp only at filled
            rw [page] at filled
            exact filled rfl
        rw [whole]
  · intro brought frame
    dsimp only
    intro uptodate
    rcases fillPage_delivered env proc file index (w.setPage file.view index ⟨false, frame⟩) with
      ⟨-, -, stale⟩ | ⟨bytes, some, fits, -, page⟩
    · rw [stale] at uptodate
      cases uptodate
    · rw [same] at some
      rcases brought with none | whole
      · rw [none] at some
        cases some
      · have block : bytes = List.ofFn (pageOf content index) :=
          Option.some.inj (some.symm.trans whole)
        rw [page]
        exact (overlay_eq_iff fits).mpr block _

/-! ## A client that answers -/

/-- What a view's page is filled with if the lower file system obliges and the client's
callbacks are `cb`: a block that is too long is no answer. -/
def refill (cb : DealCb) (view : View) (lower : List UInt8) (index : Nat) : List UInt8 :=
  match view with
  | .raw => slice (index * pageCacheSize) pageCacheSize lower
  | .decrypted =>
      let offset := index * pageCacheSize + encryptFileHeaderSize
      let bytes := slice offset pageCacheSize lower
      let block := cb.onRead offset bytes
      if block.length ≤ pageCacheSize then block ++ bytes.drop block.length else bytes

/-- A block that does not fit the destination is not decoded: a size that is right for the
reply is the block's. -/
theorem decodeBlock_long (header : PacketHeader) {block : List UInt8} {dstSize : Nat}
    (beyond : Nat → UInt8) (long : dstSize < block.length) :
    decodeBlock ⟨blockReply header block, beyond⟩ dstSize = none := by
  have length := length_blockReply header block
  unfold decodeBlock
  dsimp only
  rw [length]
  generalize Reply.blockSize ⟨blockReply header block, beyond⟩ = size
  split_ifs
  · rfl
  · rfl
  · rfl
  · omega

/-- The block a read upcall stores when the client answers. -/
theorem teadfsRequestRead_block {env : Env} {cb : DealCb} (answers : Answers env cb) {proc : Nat}
    {w : World} (connected : Connected proc w) (offset : Nat) (src : List UInt8) {dstSize : Nat}
    (word : dstSize < 2 ^ 32) :
    (teadfsRequestRead env proc offset src dstSize w).2.1 =
      if (cb.onRead offset src).length ≤ dstSize then cb.onRead offset src else [] := by
  split
  · rename_i fits
    exact (teadfsRequestRead_answered answers connected offset src fits word).2
  · rename_i long
    obtain ⟨packet, beyond, -, data, payload, -, reply⟩ := exchange_answered answers connected
      .read (.read 0 offset ⟨src.length, sizeofPacketInfo⟩) src
    have message : dealTeadfsMsg cb packet = blockReply packet.header (cb.onRead offset src) := by
      simp [dealTeadfsMsg, data, payload]
    have none : (exchange env proc .read (.read 0 offset ⟨src.length, sizeofPacketInfo⟩) src
        w).reply.bind (decodeBlock · dstSize) = none := by
      rw [reply, Option.bind_some, message, decodeBlock_long _ _ (Nat.not_le.mp long)]
    unfold teadfsRequestRead requestBlock
    dsimp only
    rw [none]

theorem pageDelivered_answered {env : Env} {cb : DealCb} (obliging : Obliging env)
    (answers : Answers env cb) {proc : Nat} {file : FileInfo} {w : World}
    (served : Served proc file w) (index : Nat) :
    pageDelivered env proc file index w = some (refill cb file.view w.inode.lower index) := by
  obtain ⟨ref, opened⟩ := Option.isSome_iff_exists.mp served.1
  simp only [pageDelivered, opened, kernelRead_full (obliging.kernelRead _), lowerOffset]
  by_cases decrypt : file.access = .decrypt
  · have ticked : Connected proc w.tick := served.2 decrypt
    have block := teadfsRequestRead_block answers ticked
      (index * pageCacheSize + encryptFileHeaderSize)
      (slice (index * pageCacheSize + encryptFileHeaderSize) pageCacheSize w.inode.lower)
      (show pageCacheSize < 2 ^ 32 by decide)
    simp only [if_pos decrypt, block, view_of_decrypt decrypt, refill]
    split <;> simp
  · simp only [if_neg decrypt, view_of_raw decrypt, refill]

theorem refill_decrypted {cb : DealCb} (preserves : ∀ o d, (cb.onRead o d).length = d.length)
    (lower : List UInt8) (index : Nat) :
    refill cb .decrypted lower index = cb.onRead (index * pageCacheSize + encryptFileHeaderSize)
      (slice (index * pageCacheSize + encryptFileHeaderSize) pageCacheSize lower) := by
  have short : (cb.onRead (index * pageCacheSize + encryptFileHeaderSize)
      (slice (index * pageCacheSize + encryptFileHeaderSize) pageCacheSize lower)).length ≤
        pageCacheSize := by
    rw [preserves, length_slice]
    exact Nat.min_le_left ..
  simp only [refill]
  rw [if_pos short, preserves, List.drop_length, List.append_nil]

/-- What a byte-wise client delivers are the bytes of the view. -/
theorem refill_cipher (enc : Equiv.Perm UInt8) (onOpen onRelease : Nat → Nat → List UInt8 → Int)
    (view : View) (lower : List UInt8) (index : Nat) :
    refill (cipherCb enc onOpen onRelease) view lower index =
      slice (index * pageCacheSize) pageCacheSize
        ((lower.drop view.label).map (view.cipher enc).symm) := by
  have bytes : slice (index * pageCacheSize) pageCacheSize
      ((lower.drop view.label).map (view.cipher enc).symm) =
        (slice (index * pageCacheSize + view.label) pageCacheSize lower).map
          (view.cipher enc).symm := by
    rw [slice, slice, ← List.map_drop, ← List.map_take, List.drop_drop, Nat.add_comm view.label]
  rw [bytes]
  cases view with
  | raw => simp [refill, View.cipher, View.label]
  | decrypted =>
      rw [refill_decrypted fun _ _ => List.length_map _]
      rfl

/-- For a byte-wise client, a view's pages are those of its bytes, but for the last one: a
page is determined exactly if the lower file reaches to its end. -/
theorem answered_page_determined_iff {env : Env} {enc : Equiv.Perm UInt8}
    {onOpen onRelease : Nat → Nat → List UInt8 → Int} (obliging : Obliging env)
    (answers : Answers env (cipherCb enc onOpen onRelease)) {proc : Nat} {file : FileInfo}
    {w : World} (served : Served proc file w) (index : Nat) :
    Determines (teadfsReadpage env proc file index) file index
        ((w.inode.lower.drop file.view.label).map (file.view.cipher enc).symm) w ↔
      file.view.label + (index + 1) * pageCacheSize ≤ w.inode.lower.length := by
  have determines := fillPage_determines_iff env proc file index
    ((w.inode.lower.drop file.view.label).map (file.view.cipher enc).symm) w
  rw [pageDelivered_answered obliging answers served, refill_cipher] at determines
  refine determines.trans ?_
  rw [Option.some.injEq, or_iff_right (by simp)]
  generalize content : (w.inode.lower.drop file.view.label).map (file.view.cipher enc).symm = bytes
  have length : bytes.length = w.inode.lower.length - file.view.label := by
    rw [← content, List.length_map, List.length_drop]
  have split : (index + 1) * pageCacheSize = index * pageCacheSize + pageCacheSize :=
    Nat.succ_mul ..
  have some : 0 < pageCacheSize := by decide
  constructor
  · intro same
    have count := congrArg List.length same
    rw [length_slice, List.length_ofFn] at count
    omega
  · intro reaches
    apply List.ext_getElem?
    intro i
    rw [getElem?_slice, List.getElem?_ofFn]
    split_ifs with inside
    · have there : index * pageCacheSize + i < bytes.length := by omega
      rw [pageOf, List.getElem?_eq_getElem there]
      rfl
    · rfl

/-- The fill of `treadfs_write_begin` is that of `teadfs_readpage`, one question later. -/
theorem pageForWrite_determines_iff (env : Env) (proc : Nat) (file : FileInfo) (index : Nat)
    (content : List UInt8) (w : World) :
    Determines (pageForWrite env proc file index) file index content w ↔
      Determines (fillPage env proc file index) file index content w.tick := by
  have fill : ∀ frame, pageForWrite env proc file index (w.setPage file.view index ⟨false, frame⟩) =
      fillPage env proc file index (w.tick.setPage file.view index ⟨false, frame⟩) := by
    intro frame
    rw [pageForWrite, if_neg (by rw [World.page_setPage_self]; exact Bool.false_ne_true)]
    rfl
  simp only [Determines, fill]

/-- **A page is what the file has there exactly if a whole page is delivered.** For every
file, handle and page, whatever the environment answers and whatever content the file is
taken to have: `teadfs_readpage` fails or leaves the page of that content, with zeros behind
its end, in whatever frame, exactly if the lower file system and the client deliver nothing
or just that page, all of it; and so does the fill of `treadfs_write_begin`. Where they do
all that they are asked for and the client is byte-wise, that is so exactly if the lower
file reaches to the end of the page. -/
theorem page_determined_iff (env : Env) (proc : Nat) (file : FileInfo) (index : Nat)
    (content : List UInt8) (w : World) :
    (Determines (teadfsReadpage env proc file index) file index content w ↔
      pageDelivered env proc file index w = none ∨
        pageDelivered env proc file index w = some (List.ofFn (pageOf content index))) ∧
    (Determines (pageForWrite env proc file index) file index content w ↔
      pageDelivered env proc file index w.tick = none ∨
        pageDelivered env proc file index w.tick = some (List.ofFn (pageOf content index))) ∧
    ∀ (enc : Equiv.Perm UInt8) (onOpen onRelease : Nat → Nat → List UInt8 → Int), Obliging env →
      Answers env (cipherCb enc onOpen onRelease) → Served proc file w →
      content = (w.inode.lower.drop file.view.label).map (file.view.cipher enc).symm →
      (Determines (teadfsReadpage env proc file index) file index content w ↔
        file.view.label + (index + 1) * pageCacheSize ≤ w.inode.lower.length) := by
  refine ⟨fillPage_determines_iff env proc file index content w, ?_, ?_⟩
  · rw [pageForWrite_determines_iff]
    exact fillPage_determines_iff env proc file index content w.tick
  · rintro enc onOpen onRelease obliging answers served rfl
    exact answered_page_determined_iff obliging answers served index

/-- One page behind its label, and one byte more. -/
def pageAndByte : World := freshWorld (List.replicate 4353 5)

/-- Of that file the first page is determined, and the second is not. -/
theorem first_page_determined :
    Determines (teadfsReadpage (clientEnv (xorCb .decrypt)) 7 (exampleFile .decrypt) 0)
        (exampleFile .decrypt) 0 ((pageAndByte.inode.lower.drop 256).map xorCipher.symm)
        pageAndByte ∧
      ¬ Determines (teadfsReadpage (clientEnv (xorCb .decrypt)) 7 (exampleFile .decrypt) 1)
        (exampleFile .decrypt) 1 ((pageAndByte.inode.lower.drop 256).map xorCipher.symm)
        pageAndByte := by
  have lower : pageAndByte.inode.lower.length = 4353 := List.length_replicate
  have size : ∀ index, Determines
      (teadfsReadpage (clientEnv (xorCb .decrypt)) 7 (exampleFile .decrypt) index)
      (exampleFile .decrypt) index ((pageAndByte.inode.lower.drop 256).map xorCipher.symm)
      pageAndByte ↔ 256 + (index + 1) * pageCacheSize ≤ 4353 := by
    intro index
    rw [← lower]
    exact (page_determined_iff (clientEnv (xorCb .decrypt)) 7 (exampleFile .decrypt) index _
      pageAndByte).2.2 xorCipher _ _ (clientEnv_obliging _) (clientEnv_answers _)
      ⟨rfl, by decide⟩ rfl
  rw [size, size]
  decide

/-- A file of one byte, read into a frame that held another file's: the byte is followed by
what was in the frame. -/
theorem short_page_keeps_frame :
    ¬ ∀ (access : OpenFileResult) (lower : List UInt8) (index : Nat), access ≠ .decrypt →
      Determines (teadfsReadpage (clientEnv (xorCb access)) 7 (exampleFile access) index)
        (exampleFile access) index lower (freshWorld lower) := by
  intro determined
  have page := determined .init [1] 0 (by decide) (fun _ => 9) (by decide +kernel)
  have byte := congrFun page ⟨1, by decide⟩
  exact absurd byte (by decide +kernel)

end Teadfs
