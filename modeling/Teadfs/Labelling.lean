/-
# Teadfs.Labelling — the file the shipped application writes on release

The application of `test.cpp` labels a text file when its last handle goes: it writes a
label and the file's bytes, exclusive-or 0x13, in chunks of 1024 to a temporary file, and
renames that to the file. The kernel module reads such a file in pages of 4096, behind a
label whose size it defines by itself.

The two agree for every content, with one reservation: the temporary file is opened
without `O_TRUNC`. If one is left over and is longer than what is written, its tail stays
and is decrypted with the rest (`labelled_reads_iff`).

The label is the buffer the file's beginning was probed with, with the flag over its first
four bytes. A process that may only see the file encrypted reads the rest of that
beginning there (`labels_same_iff`).
-/
import Teadfs.DecryptedView

namespace Teadfs

set_option autoImplicit false

open Protocol FileContent Frame LittleEndian

/-! ## The application -/

/-- `ENCRYPT_FILE_FLAG`. -/
def encryptFileFlag : Nat := 0x44414554

/-- `ENCRYPT_FILE_HEADER_SIZE` as `test.cpp` has it. -/
def appHeaderSize : Nat := 256

/-- The size of `chBuf`. -/
def appBufSize : Nat := 1024

/-- `chHeader`, read from the front of a file into zeroed memory. -/
def appHeader (content : List UInt8) : List UInt8 := resize 0 appHeaderSize content

/-- The test both callbacks make: a full header was read, and it starts with the flag. -/
def appLabelled (content : List UInt8) : Bool :=
  decide (appHeaderSize ≤ content.length) && decide (field 0 4 (appHeader content) = encryptFileFlag)

/-- The `open` callback, for a process whose executable is at `procPath`. -/
def appOpen (procPath content : List UInt8) : OpenFileResult :=
  if appLabelled content then
    -- "cat"
    if [0x63, 0x61, 0x74] <:+: procPath then .encrypt else .decrypt
  else .init

/-- The loop of the `release` callback: a chunk is read at `src`, encrypted, and written
at `dst`. Each pass but the last reads a byte or more, so the content bounds the passes. -/
def appEncryptLoop (content : List UInt8) : Nat → Nat → Nat → List UInt8 → List UInt8
  | 0, _, _, out => out
  | fuel + 1, src, dst, out =>
      let chunk := slice src appBufSize content
      if chunk.length = 0 then out
      else
        appEncryptLoop content fuel (src + chunk.length) (dst + chunk.length)
          (write 0 dst (chunk.map xorCipher) out)

/-- A file, and the one at its path with `.teadfstmp` behind. -/
structure AppFiles where
  file : List UInt8
  tmp : Option (List UInt8)

/-- The `release` callback. Every call succeeds and transfers what it is asked to. -/
def appRelease (path : List UInt8) (d : AppFiles) : AppFiles :=
  -- ".txt"
  if [0x2e, 0x74, 0x78, 0x74] <:+: path then
    if appLabelled d.file then d
    else
      -- `O_RDWR | O_CREAT`
      let out := d.tmp.getD []
      let header := write 0 0 (le 4 encryptFileFlag) (appHeader d.file)
      let out := write 0 0 header out
      ⟨appEncryptLoop d.file (d.file.length + 1) 0 appHeaderSize out, none⟩
  else d

/-! ## What it writes -/

theorem appEncryptLoop_eq (content : List UInt8) {fuel src : Nat} (dst : Nat) (out : List UInt8)
    (enough : content.length - src < fuel) :
    appEncryptLoop content fuel src dst out =
      write 0 dst ((content.drop src).map xorCipher) out := by
  induction fuel generalizing src dst out with
  | zero => omega
  | succ fuel ih =>
      have length := length_slice src appBufSize content
      have buf : appBufSize = 1024 := rfl
      simp only [appEncryptLoop]
      split_ifs with done
      · have none : content.drop src = [] := by
          rw [List.drop_eq_nil_iff]
          omega
        rw [none, List.map_nil, write_nil]
      · rw [ih _ _ (by omega)]
        have adjacent := write_write_adjacent 0 dst ((slice src appBufSize content).map xorCipher)
          ((content.drop (src + (slice src appBufSize content).length)).map xorCipher) out
        rw [List.length_map, ← List.map_append, slice_append_rest] at adjacent
        exact adjacent

/-- The label `release` writes for a file. -/
def appLabel (content : List UInt8) : List UInt8 :=
  write 0 0 (le 4 encryptFileFlag) (appHeader content)

theorem appLabel_eq (content : List UInt8) :
    appLabel content = le 4 encryptFileFlag ++ (appHeader content).drop 4 := by
  simp [appLabel, write, resize, le]

theorem length_appLabel (content : List UInt8) : (appLabel content).length = appHeaderSize := by
  rw [appLabel_eq, List.length_append, length_le, List.length_drop, appHeader, length_resize]
  rfl

/-- A file that is not labelled becomes its label, its bytes encrypted, and what the
temporary file had behind them. -/
theorem appRelease_unlabelled {path : List UInt8} {d : AppFiles}
    (isText : [0x2e, 0x74, 0x78, 0x74] <:+: path) (plain : appLabelled d.file = false) :
    appRelease path d =
      ⟨appLabel d.file ++ d.file.map xorCipher ++
        (d.tmp.getD []).drop (appHeaderSize + d.file.length), none⟩ := by
  have label := length_appLabel d.file
  have block : (appLabel d.file ++ d.file.map xorCipher).isEmpty = false := by
    rw [List.isEmpty_eq_false_iff]
    intro none
    rw [(List.append_eq_nil_iff.mp none).1] at label
    cases label
  have written : appEncryptLoop d.file (d.file.length + 1) 0 appHeaderSize
      (write 0 0 (appLabel d.file) (d.tmp.getD [])) =
        write 0 0 (appLabel d.file ++ d.file.map xorCipher) (d.tmp.getD []) := by
    rw [appEncryptLoop_eq d.file _ _ (by omega), List.drop_zero, ← write_write_adjacent,
      label, Nat.zero_add]
  rw [appRelease, if_pos isText, if_neg (by rw [plain]; decide)]
  dsimp only
  rw [← appLabel, written, write, block]
  simp [resize, label]

/-- What starts with a label is labelled. -/
theorem appLabelled_appLabel (content rest : List UInt8) :
    appLabelled (appLabel content ++ rest) = true := by
  have long : appHeaderSize ≤ (appLabel content ++ rest).length := by
    rw [List.length_append, length_appLabel]
    omega
  have flag : field 0 4 (appHeader (appLabel content ++ rest)) = encryptFileFlag := by
    rw [appHeader, resize, List.takeD_eq_take 0 long, List.take_append_of_le_length
      (Nat.le_of_eq (length_appLabel content).symm), List.take_of_length_le
      (Nat.le_of_eq (length_appLabel content)), appLabel_eq]
    exact field_le_of_lt (by decide) _
  rw [appLabelled, decide_eq_true long, decide_eq_true flag]
  rfl

/-! ## Reading it back -/

/-- `n` pages from `index` on, each filled by `teadfs_read_lower` into some frame. -/
def readPages (env : Env) (proc : Nat) (file : FileInfo) (frame : Nat → FrameBytes) :
    Nat → Nat → World → List UInt8
  | 0, _, _ => []
  | n + 1, index, w =>
      let r := teadfsReadLower env proc file (frame index) (index * pageCacheSize) w
      window r.2.1 0 r.1.toNat ++ readPages env proc file frame n (index + 1) r.2.2

section Pages

variable {env : Env} {onOpen onRelease : Nat → Nat → List UInt8 → Int} {proc : Nat} {w : World}
  {file : FileInfo} {label body : List UInt8}

/-- The pages of a labelled file are those of what it decrypts to. -/
theorem readPages_eq (obliging : Obliging env)
    (answers : Answers env (cipherCb xorCipher onOpen onRelease)) (connected : Connected proc w)
    (isOpen : file.lowerFile.isSome) (decrypt : file.access = .decrypt)
    (labelled : label.length = encryptFileHeaderSize)
    (lower : w.inode.lower = label ++ body.map xorCipher) (frame : Nat → FrameBytes)
    (n index : Nat) :
    readPages env proc file frame n index w =
      slice (index * pageCacheSize) (n * pageCacheSize) body := by
  induction n generalizing index w with
  | zero => simp [readPages, slice]
  | succ n ih =>
      have preserves : ∀ o d, ((cipherCb xorCipher onOpen onRelease).onRead o d).length = d.length :=
        fun o d => List.length_map _
      obtain ⟨rc, page⟩ := teadfsReadLower_decrypted obliging answers connected isOpen decrypt
        (frame index) (index * pageCacheSize) (by decide) preserves
      have bytes := map_slice_lower labelled lower (index * pageCacheSize) pageCacheSize
      have block : (cipherCb xorCipher onOpen onRelease).onRead
          (index * pageCacheSize + encryptFileHeaderSize)
          (slice (index * pageCacheSize + encryptFileHeaderSize) pageCacheSize w.inode.lower) =
            slice (index * pageCacheSize) pageCacheSize body := bytes
      have count : (slice (index * pageCacheSize + encryptFileHeaderSize) pageCacheSize
          w.inode.lower).length = (slice (index * pageCacheSize) pageCacheSize body).length := by
        rw [← bytes, List.length_map]
      have fits : (slice (index * pageCacheSize) pageCacheSize body).length ≤ pageCacheSize := by
        rw [length_slice]
        exact Nat.min_le_left ..
      have steady := teadfsReadLower_steady env proc file (frame index) (index * pageCacheSize) w
      have inode := teadfsReadLower_inode env proc file (frame index) (index * pageCacheSize) w
      simp only [readPages]
      rw [rc, page, block, count, Int.toNat_natCast, window_overlay (by omega) (Nat.le_refl _),
        List.take_length, ih (steady.connected connected) (by rw [inode]; exact lower),
        Nat.succ_mul, slice_append_slice, Nat.succ_mul, Nat.add_comm pageCacheSize]

end Pages

/-- The application and the kernel module agree on what `release` makes of a file: it is
labelled for `open`, its pages decrypt to what the file was, and a second `release` leaves
it alone. -/
structure AgreesOnClose (path : List UInt8) (d : AppFiles) : Prop where
  classified : ∀ procPath, appOpen procPath (appRelease path d).file =
    if [0x63, 0x61, 0x74] <:+: procPath then .encrypt else .decrypt
  readsBack : ∀ (env : Env) (onOpen onRelease : Nat → Nat → List UInt8 → Int) (proc : Nat)
    (file : FileInfo) (frame : Nat → FrameBytes) (w : World) (n : Nat), Obliging env →
    Answers env (cipherCb xorCipher onOpen onRelease) → Connected proc w → file.lowerFile.isSome →
    file.access = .decrypt → w.inode.lower = (appRelease path d).file →
    (appRelease path d).file.length ≤ encryptFileHeaderSize + n * pageCacheSize →
      readPages env proc file frame n 0 w = d.file
  again : appRelease path (appRelease path d) = appRelease path d

section OnClose

variable {path : List UInt8} {d : AppFiles}

/-- What `release` leaves: a label and, encrypted, the content with the tail of the
temporary file decrypted behind it. -/
theorem appRelease_body (isText : [0x2e, 0x74, 0x78, 0x74] <:+: path)
    (plain : appLabelled d.file = false) :
    (appRelease path d).file = appLabel d.file ++ (d.file ++
      ((d.tmp.getD []).drop (appHeaderSize + d.file.length)).map xorCipher.symm).map xorCipher := by
  rw [appRelease_unlabelled isText plain, List.map_append, List.map_map, Equiv.self_comp_symm,
    List.map_id, List.append_assoc]

/-- Where the pages read back are the content, there is no tail. -/
theorem AgreesOnClose.no_tail (isText : [0x2e, 0x74, 0x78, 0x74] <:+: path)
    (plain : appLabelled d.file = false) (agrees : AgreesOnClose path d) :
    (d.tmp.getD []).drop (appHeaderSize + d.file.length) = [] := by
  have body := appRelease_body isText plain
  have header : (appLabel d.file).length = encryptFileHeaderSize := length_appLabel d.file
  have length := congrArg List.length body
  rw [List.length_append, List.length_map] at length
  have wide : (appRelease path d).file.length ≤ (appRelease path d).file.length * pageCacheSize :=
    Nat.le_mul_of_pos_right _ (by decide)
  have connected : Connected 7 (freshWorld (appRelease path d).file) :=
    ⟨rfl, show 7 ≠ 1 by decide⟩
  have obliging := clientEnv_obliging (xorCb .decrypt)
  have answers := clientEnv_answers (xorCb .decrypt)
  have pages : readPages (clientEnv (xorCb .decrypt)) 7 (exampleFile .decrypt) (fun _ _ => 0)
      (appRelease path d).file.length 0 (freshWorld (appRelease path d).file) = _ :=
    readPages_eq obliging answers connected rfl rfl header body _ _ 0
  rw [agrees.readsBack _ _ _ _ _ _ _ _ obliging answers connected rfl rfl rfl (by omega), slice,
    Nat.zero_mul, List.drop_zero, List.take_of_length_le (by omega)] at pages
  exact List.map_eq_nil_iff.mp (List.self_eq_append_right.mp pages)

/-- Where there is no tail, all is as it should be. -/
theorem agreesOnClose_of_no_tail (isText : [0x2e, 0x74, 0x78, 0x74] <:+: path)
    (plain : appLabelled d.file = false)
    (none : (d.tmp.getD []).drop (appHeaderSize + d.file.length) = []) : AgreesOnClose path d := by
  have body := appRelease_body isText plain
  rw [none, List.map_nil, List.append_nil] at body
  have header : (appLabel d.file).length = encryptFileHeaderSize := length_appLabel d.file
  have labelled := appLabelled_appLabel d.file (d.file.map xorCipher)
  constructor
  · intro procPath
    rw [appOpen, body, labelled, if_pos rfl]
  · intro env onOpen onRelease proc file frame w n obliging answers connected isOpen decrypt lower
      enough
    rw [readPages_eq obliging answers connected isOpen decrypt header (lower.trans body)]
    rw [body, List.length_append, header, List.length_map] at enough
    rw [slice, Nat.zero_mul, List.drop_zero, List.take_of_length_le (by omega)]
  · rw [appRelease, if_pos isText, body, labelled, if_pos rfl]

end OnClose

/-- "a.txt". -/
def textPath : List UInt8 := [0x61, 0x2e, 0x74, 0x78, 0x74]

/-- What a read of the front of a file brings in of its label, into a buffer of any size. -/
def labelRead (env : Env) (proc : Nat) (file : FileInfo) {size : Nat} (data : Fin size → UInt8)
    (w : World) : List UInt8 :=
  let r := teadfsReadLower env proc file data 0 w
  (window r.2.1 0 r.1.toNat).take encryptFileHeaderSize

/-- A handle that does not decrypt reads the label `release` wrote. -/
theorem labelRead_eq {env : Env} (obliging : Obliging env) (proc : Nat) {file : FileInfo}
    (isOpen : file.lowerFile.isSome) (raw : file.access ≠ .decrypt) {size : Nat}
    (room : encryptFileHeaderSize ≤ size) (data : Fin size → UInt8) {path : List UInt8}
    {d : AppFiles} (isText : [0x2e, 0x74, 0x78, 0x74] <:+: path)
    (plain : appLabelled d.file = false) {w : World}
    (lower : w.inode.lower = (appRelease path d).file) :
    labelRead env proc file data w = appLabel d.file := by
  have header : (appLabel d.file).length = encryptFileHeaderSize := length_appLabel d.file
  have fits : (slice 0 size w.inode.lower).length ≤ size := by
    rw [length_slice]
    exact Nat.min_le_left ..
  rw [labelRead, teadfsReadLower_raw obliging proc isOpen raw]
  dsimp only
  rw [Int.toNat_natCast, window_overlay (by omega) (Nat.le_refl _), List.take_length, slice,
    List.drop_zero, List.take_take, Nat.min_eq_left room, lower, appRelease_body isText plain,
    List.take_append_of_le_length header.ge, List.take_of_length_le header.le]

/-- Two labels are the same exactly if the files begin alike behind the flag. -/
theorem appLabel_eq_iff (content content' : List UInt8) :
    appLabel content = appLabel content' ↔
      (appHeader content).drop 4 = (appHeader content').drop 4 := by
  rw [appLabel_eq, appLabel_eq]
  exact List.append_right_inj _

/-- **What the label shows of a file.** Two text files, neither of them labelled, each with
whatever temporary file was left over, are labelled on release, and each is read through an
`OFR_ENCRYPT` handle into a buffer that the label fits in: the labels read are the same
exactly if bytes 4 to 255 of the two contents are, with zeros behind the end of a content
that is shorter. -/
theorem labels_same_iff {path : List UInt8} (isText : [0x2e, 0x74, 0x78, 0x74] <:+: path)
    {d d' : AppFiles} (plain : appLabelled d.file = false) (plain' : appLabelled d'.file = false)
    {env env' : Env} (obliging : Obliging env) (obliging' : Obliging env') (proc proc' : Nat)
    {file file' : FileInfo} (isOpen : file.lowerFile.isSome) (isOpen' : file'.lowerFile.isSome)
    (encrypt : file.access = .encrypt) (encrypt' : file'.access = .encrypt) {size size' : Nat}
    (room : encryptFileHeaderSize ≤ size) (room' : encryptFileHeaderSize ≤ size')
    (data : Fin size → UInt8) (data' : Fin size' → UInt8) {w w' : World}
    (lower : w.inode.lower = (appRelease path d).file)
    (lower' : w'.inode.lower = (appRelease path d').file) :
    labelRead env proc file data w = labelRead env' proc' file' data' w' ↔
      ∀ i, 4 ≤ i → i < 256 → d.file[i]?.getD 0 = d'.file[i]?.getD 0 := by
  have raw : file.access ≠ .decrypt := by rw [encrypt]; decide
  have raw' : file'.access ≠ .decrypt := by rw [encrypt']; decide
  rw [labelRead_eq obliging proc isOpen raw room data isText plain lower,
    labelRead_eq obliging' proc' isOpen' raw' room' data' isText plain' lower', appLabel_eq_iff]
  have byte : ∀ (content : List UInt8) (i : Nat), ((appHeader content).drop 4)[i]? =
      if 4 + i < 256 then some (content[4 + i]?.getD 0) else none := by
    intro content i
    rw [List.getElem?_drop, appHeader, getElem?_resize]
    rfl
  constructor
  · intro same i flag inside
    have here := congrArg (fun header => header[i - 4]?) same
    simp only [byte, show 4 + (i - 4) = i by omega, inside, if_true] at here
    exact Option.some.inj here
  · intro same
    apply List.ext_getElem?
    intro i
    rw [byte, byte]
    split
    · rename_i inside
      rw [same (4 + i) (by omega) inside]
    · rfl

/-- Two files that differ in the bytes the flag is written over. -/
theorem flag_bytes_not_shown :
    labelRead (clientEnv (xorCb .encrypt)) 7 (exampleFile .encrypt) (fun _ : Fin 256 => 0)
        (freshWorld (appRelease textPath ⟨[0x62, 0x63], none⟩).file) =
      labelRead (clientEnv (xorCb .encrypt)) 7 (exampleFile .encrypt) (fun _ : Fin 256 => 0)
        (freshWorld (appRelease textPath ⟨[0x64], none⟩).file) :=
  (labels_same_iff (by decide) (by decide) (by decide) (clientEnv_obliging _)
    (clientEnv_obliging _) 7 7 rfl rfl rfl rfl (by decide) (by decide) _ _ rfl rfl).mpr (by
      intro i behind _
      rw [List.getElem?_eq_none (by simp; omega), List.getElem?_eq_none (by simp; omega)])

/-- The fifth byte of a file is in its label as it was. -/
theorem fifth_byte_shown :
    ¬ ∀ (path content content' : List UInt8), [0x2e, 0x74, 0x78, 0x74] <:+: path →
      appLabelled content = false → appLabelled content' = false →
      labelRead (clientEnv (xorCb .encrypt)) 7 (exampleFile .encrypt) (fun _ : Fin 4096 => 0)
          (freshWorld (appRelease path ⟨content, none⟩).file) =
        labelRead (clientEnv (xorCb .encrypt)) 7 (exampleFile .encrypt) (fun _ : Fin 4096 => 0)
          (freshWorld (appRelease path ⟨content', none⟩).file) := by
  intro same
  have labels := same textPath [0, 0, 0, 0, 0x61] [0, 0, 0, 0, 0x62] (by decide) (by decide)
    (by decide)
  rw [labelRead_eq (clientEnv_obliging _) 7 rfl (by decide) (by decide) _ (by decide) (by decide)
      (show (freshWorld (appRelease textPath ⟨[0, 0, 0, 0, 0x61], none⟩).file).inode.lower = _
        from rfl),
    labelRead_eq (clientEnv_obliging _) 7 rfl (by decide) (by decide) _ (by decide) (by decide)
      (show (freshWorld (appRelease textPath ⟨[0, 0, 0, 0, 0x62], none⟩).file).inode.lower = _
        from rfl)] at labels
  exact absurd labels (by decide +kernel)

end Teadfs
