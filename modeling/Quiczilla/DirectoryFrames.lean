import Quiczilla.Foundation.BigEndian
import Quiczilla.Foundation.Sha256
import Quiczilla.RelativePath

/-!
# The frames of a directory stream

A directory job is one byte stream: a START frame with the name of the root,
then directory, pack and file frames, then an END frame with totals.  The
reading functions below are those of `receive_directory`; `readStream` is its
loop without the file system.  Paths are Unix paths.
-/

namespace Quiczilla

open Foundation

def frameStart : UInt8 := 0x11
def frameDirectory : UInt8 := 0x12
def framePackStart : UInt8 := 0x13
def frameFile : UInt8 := 0x14
def framePackEnd : UInt8 := 0x15
def frameEnd : UInt8 := 0x16

structure DirectoryTransferStats where
  files : Nat
  directories : Nat
  bytes : Nat
  packs : Nat
  deriving DecidableEq, Repr

/-- The frames between START and END.  `flag` is the checksum byte of a file
frame, and `digest` is there when it is not zero. -/
inductive DirectoryFrame where
  | directory (relative : String)
  | packStart (pack : Nat)
  | packEnd
  | file
      (relative : String) (content : List UInt8) (flag : UInt8)
      (digest : List UInt8)
  deriving DecidableEq, Repr

/-! ## Writing -/

def utf8Bytes (text : String) : List UInt8 :=
  text.toByteArray.data.toList

/-- `write_path`, on a path that was validated. -/
def encodePath (value : String) : List UInt8 :=
  toBigEndian 4 value.utf8ByteSize ++ utf8Bytes value

def encodeStart (rootName : String) : List UInt8 :=
  frameStart :: encodePath rootName

def encodeFileHead (relative : String) (size : Nat) (flag : UInt8) :
    List UInt8 :=
  frameFile :: (encodePath relative ++ (toBigEndian 8 size ++ [flag]))

def DirectoryFrame.encode : DirectoryFrame → List UInt8
  | .directory relative => frameDirectory :: encodePath relative
  | .packStart pack => framePackStart :: toBigEndian 8 pack
  | .packEnd => [framePackEnd]
  | .file relative content flag digest =>
      encodeFileHead relative content.length flag ++ (content ++ digest)

def encodeEnd (stats : DirectoryTransferStats) : List UInt8 :=
  frameEnd ::
    (toBigEndian 8 stats.files ++
      (toBigEndian 8 stats.directories ++ toBigEndian 8 stats.bytes))

/-! ## Reading -/

/-- `read_exact`. -/
def readExact (count : Nat) (input : List UInt8) :
    Except String (List UInt8 × List UInt8) :=
  if count ≤ input.length then .ok (input.take count, input.drop count)
  else .error "early eof"

/-- `read_u8`. -/
def readU8 : List UInt8 → Except String (UInt8 × List UInt8)
  | [] => .error "unexpected end of file"
  | byte :: input => .ok (byte, input)

/-- `String::from_utf8`. -/
def decodeUtf8 (bytes : List UInt8) : Except String String :=
  match String.fromUTF8? ⟨bytes.toArray⟩ with
  | some text => .ok text
  | none => .error "directory transfer path is not UTF-8"

/-- `read_path`. -/
def readPath (input : List UInt8) :
    Except String (String × List UInt8) := do
  let (lengthBytes, input) ← readExact 4 input
  let length := ofBigEndian lengthBytes
  if length = 0 ∨ maxPathBytes < length then
    .error "directory transfer path length is invalid"
  else
    let (bytes, input) ← readExact length input
    let value ← decodeUtf8 bytes
    validateRelativePath .unix value
    .ok (value, input)

/-- What is read of a frame before the content of a file. -/
inductive FrameHead where
  | directory (relative : String)
  | packStart (pack : Nat)
  | packEnd
  | file (relative : String) (size : Nat) (flag : UInt8)
  | finish (files directories bytes : Nat)
  deriving DecidableEq, Repr

def readFrameHead : List UInt8 →
    Except String (FrameHead × List UInt8)
  | [] => .error "unexpected end of file"
  | tag :: input =>
      if tag = frameDirectory then do
        let (relative, input) ← readPath input
        .ok (.directory relative, input)
      else if tag = framePackStart then do
        let (ignored, input) ← readExact 8 input
        .ok (.packStart (ofBigEndian ignored), input)
      else if tag = framePackEnd then
        .ok (.packEnd, input)
      else if tag = frameFile then do
        let (relative, input) ← readPath input
        let (sizeBytes, input) ← readExact 8 input
        let (flag, input) ← readU8 input
        .ok (.file relative (ofBigEndian sizeBytes) flag, input)
      else if tag = frameEnd then do
        let (files, input) ← readExact 8 input
        let (directories, input) ← readExact 8 input
        let (bytes, input) ← readExact 8 input
        .ok
          (.finish (ofBigEndian files) (ofBigEndian directories)
            (ofBigEndian bytes),
            input)
      else .error "directory transfer contains an unknown frame"

/-- The START frame; the root must be one path component. -/
def readStart : List UInt8 → Except String (String × List UInt8)
  | [] => .error "unexpected end of file"
  | tag :: input =>
      if tag = frameStart then do
        let (rootName, input) ← readPath input
        if (Platform.unix.parse rootName).componentCount ≠ 1 then
          .error "directory transfer root must be one path component"
        else .ok (rootName, input)
      else
        .error "directory transfer did not start with a directory frame"

/-- The statistics before the first frame. -/
def DirectoryTransferStats.start : DirectoryTransferStats where
  files := 0
  directories := 1
  bytes := 0
  packs := 0

/-- What a received frame adds.  A release build does not check these 64-bit
additions. -/
def DirectoryTransferStats.count
    (stats : DirectoryTransferStats) : DirectoryFrame →
    DirectoryTransferStats
  | .directory _ =>
      { stats with directories := (stats.directories + 1) % 2 ^ 64 }
  | .packStart _ => { stats with packs := (stats.packs + 1) % 2 ^ 64 }
  | .packEnd => stats
  | .file _ content _ _ =>
      { stats with
        files := (stats.files + 1) % 2 ^ 64
        bytes := (stats.bytes + content.length) % 2 ^ 64 }

def statsOf (frames : List DirectoryFrame) : DirectoryTransferStats :=
  frames.foldl .count .start

/-- The error for a digest that is not the one of the content. -/
def checksumMismatch (relative : String) : String :=
  "directory transfer checksum mismatch for " ++ relative

/-- The content of a file frame and, behind it, the digest. -/
def readContent
    (relative : String) (size : Nat) (flag : UInt8) (input : List UInt8) :
    Except String (List UInt8 × List UInt8 × List UInt8) := do
  let (content, input) ← readExact size input
  if flag = 0 then .ok (content, [], input)
  else
    let (expected, input) ← readExact 32 input
    if sha256 content = expected then .ok (content, expected, input)
    else .error (checksumMismatch relative)

/-- The loop of `receive_directory`, of which `received` are the frames so
far. -/
def readFrames (received : List DirectoryFrame) :
    Nat → List UInt8 → Except String (List DirectoryFrame × List UInt8)
  | 0, _ => .error "unexpected end of file"
  | fuel + 1, input => do
      let (head, input) ← readFrameHead input
      match head with
      | .directory relative =>
          readFrames (received ++ [.directory relative]) fuel input
      | .packStart pack =>
          readFrames (received ++ [.packStart pack]) fuel input
      | .packEnd => readFrames (received ++ [.packEnd]) fuel input
      | .file relative size flag => do
          let (content, digest, input) ←
            readContent relative size flag input
          readFrames (received ++ [.file relative content flag digest])
            fuel input
      | .finish files directories bytes =>
          if files ≠ (statsOf received).files ∨
              directories ≠ (statsOf received).directories ∨
              bytes ≠ (statsOf received).bytes then
            .error "directory transfer totals do not match received data"
          else .ok (received, input)

/-- A whole stream: the name of its root, its frames and what is behind it.
Every frame takes at least one byte, so the fuel is never used up. -/
def readStream (input : List UInt8) :
    Except String (String × List DirectoryFrame × List UInt8) := do
  let (rootName, input) ← readStart input
  let (frames, input) ← readFrames [] (input.length + 1) input
  .ok (rootName, frames, input)

/-! ## Reading what was written -/

theorem length_utf8Bytes (text : String) :
    (utf8Bytes text).length = text.utf8ByteSize := by
  rw [utf8Bytes, Array.length_toList]
  rfl

theorem decodeUtf8_utf8Bytes (text : String) :
    decodeUtf8 (utf8Bytes text) = .ok text := by
  have valid : String.fromUTF8? text.toByteArray = some text := by
    rw [String.fromUTF8?, dif_pos text.isValidUTF8]
    rfl
  simp only [decodeUtf8, utf8Bytes, Array.toArray_toList, valid]

theorem readExact_append
    {count : Nat} {bytes : List UInt8} (exact : bytes.length = count)
    (rest : List UInt8) :
    readExact count (bytes ++ rest) = .ok (bytes, rest) := by
  rw [readExact, if_pos (by simp [exact]), List.take_left' exact,
    List.drop_left' exact]

/-- What a reader takes is the front of the input. -/
theorem readExact_split
    {count : Nat} {input bytes rest : List UInt8}
    (read : readExact count input = .ok (bytes, rest)) :
    input = bytes ++ rest ∧ bytes.length = count := by
  rw [readExact] at read
  split at read
  · rename_i enough
    cases read
    refine ⟨(List.take_append_drop count input).symm, ?_⟩
    rw [List.length_take, Nat.min_eq_left enough]
  · cases read

theorem readExact_suffix
    {count : Nat} {input bytes rest : List UInt8}
    (read : readExact count input = .ok (bytes, rest)) :
    rest <:+ input :=
  ⟨bytes, (readExact_split read).1.symm⟩

theorem readU8_suffix
    {input rest : List UInt8} {byte : UInt8}
    (read : readU8 input = .ok (byte, rest)) : rest <:+ input := by
  cases input with
  | nil => cases read
  | cons first behind =>
      cases read
      exact List.suffix_cons _ _

theorem bind_eq_ok
    {ε α β : Type} {first : Except ε α} {next : α → Except ε β} {result : β}
    (ran : (first >>= next) = .ok result) :
    ∃ value, first = .ok value ∧ next value = .ok result := by
  cases first with
  | error reason => cases ran
  | ok value => exact ⟨value, rfl, ran⟩

theorem readPath_suffix
    {input rest : List UInt8} {value : String}
    (read : readPath input = .ok (value, rest)) : rest <:+ input := by
  obtain ⟨⟨lengthBytes, behind⟩, readLength, read⟩ := bind_eq_ok read
  dsimp only at read
  split at read
  · cases read
  · obtain ⟨⟨bytes, others⟩, readBytes, read⟩ := bind_eq_ok read
    obtain ⟨text, _, read⟩ := bind_eq_ok read
    obtain ⟨_, _, read⟩ := bind_eq_ok read
    cases read
    exact (readExact_suffix readBytes).trans (readExact_suffix readLength)

theorem readFrameHead_suffix
    {input rest : List UInt8} {head : FrameHead}
    (read : readFrameHead input = .ok (head, rest)) : rest <:+ input := by
  cases input with
  | nil => cases read
  | cons tag behind =>
      refine List.IsSuffix.trans ?_ (List.suffix_cons tag behind)
      rw [readFrameHead] at read
      split_ifs at read
      · obtain ⟨⟨relative, others⟩, readName, read⟩ := bind_eq_ok read
        cases read
        exact readPath_suffix readName
      · obtain ⟨⟨ignored, others⟩, readPack, read⟩ := bind_eq_ok read
        cases read
        exact readExact_suffix readPack
      · cases read
        exact List.suffix_rfl
      · obtain ⟨⟨relative, first⟩, readName, read⟩ := bind_eq_ok read
        obtain ⟨⟨sizeBytes, second⟩, readSize, read⟩ := bind_eq_ok read
        obtain ⟨⟨flag, third⟩, readFlag, read⟩ := bind_eq_ok read
        cases read
        exact
          ((readU8_suffix readFlag).trans
              (readExact_suffix readSize)).trans
            (readPath_suffix readName)
      · obtain ⟨⟨files, first⟩, readFiles, read⟩ := bind_eq_ok read
        obtain ⟨⟨directories, second⟩, readDirectories, read⟩ :=
          bind_eq_ok read
        obtain ⟨⟨bytes, third⟩, readBytes, read⟩ := bind_eq_ok read
        cases read
        exact
          ((readExact_suffix readBytes).trans
              (readExact_suffix readDirectories)).trans
            (readExact_suffix readFiles)

theorem readStart_suffix
    {input rest : List UInt8} {rootName : String}
    (read : readStart input = .ok (rootName, rest)) : rest <:+ input := by
  cases input with
  | nil => cases read
  | cons tag behind =>
      refine List.IsSuffix.trans ?_ (List.suffix_cons tag behind)
      rw [readStart] at read
      split_ifs at read
      · obtain ⟨⟨value, others⟩, readName, read⟩ := bind_eq_ok read
        dsimp only at read
        split at read
        · cases read
        · cases read
          exact readPath_suffix readName

theorem accepted_size
    {platform : Platform} {value : String}
    (accepted : validateRelativePath platform value = .ok ()) :
    value.utf8ByteSize ≠ 0 ∧ value.utf8ByteSize ≤ maxPathBytes := by
  unfold validateRelativePath at accepted
  split at accepted
  · cases accepted
  · rename_i passes
    push Not at passes
    refine ⟨?_, passes.2.1⟩
    intro isZero
    exact passes.1 (String.utf8ByteSize_eq_zero_iff.mp isZero)

theorem readPath_encodePath
    {value : String}
    (accepted : validateRelativePath .unix value = .ok ())
    (rest : List UInt8) :
    readPath (encodePath value ++ rest) = .ok (value, rest) := by
  obtain ⟨notZero, bounded⟩ := accepted_size accepted
  have fits : value.utf8ByteSize < 256 ^ 4 :=
    lt_of_le_of_lt bounded (by decide)
  have lengthRead :
      readExact 4
          (toBigEndian 4 value.utf8ByteSize ++
            (utf8Bytes value ++ rest)) =
        .ok (toBigEndian 4 value.utf8ByteSize, utf8Bytes value ++ rest) :=
    readExact_append (length_toBigEndian 4 _) _
  have bytesRead :
      readExact value.utf8ByteSize (utf8Bytes value ++ rest) =
        .ok (utf8Bytes value, rest) :=
    readExact_append (length_utf8Bytes value) rest
  have inRange :
      ¬(value.utf8ByteSize = 0 ∨ maxPathBytes < value.utf8ByteSize) := by
    omega
  simp only [readPath, encodePath, List.append_assoc, lengthRead, bind,
    Except.bind, ofBigEndian_toBigEndian_of_lt fits, if_neg inRange,
    bytesRead, decodeUtf8_utf8Bytes, accepted]

/-- What makes a frame one that the receiver reads: its path is accepted, its
size fits its field, and a digest is there exactly when it is announced, and
then it is the right one. -/
def DirectoryFrame.WellFormed : DirectoryFrame → Prop
  | .directory relative => validateRelativePath .unix relative = .ok ()
  | .packStart pack => pack < 2 ^ 64
  | .packEnd => True
  | .file relative content flag digest =>
      validateRelativePath .unix relative = .ok () ∧
        content.length < 2 ^ 64 ∧
          digest = if flag = 0 then [] else sha256 content

/-- The part of the frame that is read first. -/
def DirectoryFrame.head : DirectoryFrame → FrameHead
  | .directory relative => .directory relative
  | .packStart pack => .packStart pack
  | .packEnd => .packEnd
  | .file relative content flag _ => .file relative content.length flag

/-- The part of the frame behind its head. -/
def DirectoryFrame.body : DirectoryFrame → List UInt8
  | .file _ content _ digest => content ++ digest
  | _ => []

theorem readWord
    {value : Nat} (fits : value < 2 ^ 64) (rest : List UInt8) :
    readExact 8 (toBigEndian 8 value ++ rest) =
        .ok (toBigEndian 8 value, rest) ∧
      ofBigEndian (toBigEndian 8 value) = value :=
  ⟨readExact_append (length_toBigEndian 8 value) rest,
    ofBigEndian_toBigEndian_of_lt (lt_of_lt_of_eq fits (by norm_num))⟩

theorem readFrameHead_encodeFileHead
    {relative : String} {size : Nat}
    (accepted : validateRelativePath .unix relative = .ok ())
    (fits : size < 2 ^ 64) (flag : UInt8) (rest : List UInt8) :
    readFrameHead (encodeFileHead relative size flag ++ rest) =
      .ok (.file relative size flag, rest) := by
  have pathRead :=
    readPath_encodePath accepted
      (toBigEndian 8 size ++ ([flag] ++ rest))
  obtain ⟨wordRead, isWord⟩ := readWord fits ([flag] ++ rest)
  have flagRead : readU8 ([flag] ++ rest) = .ok (flag, rest) := rfl
  have spelled :
      encodeFileHead relative size flag ++ rest =
        frameFile ::
          (encodePath relative ++
            (toBigEndian 8 size ++ ([flag] ++ rest))) := by
    simp [encodeFileHead]
  rw [spelled]
  simp only [readFrameHead, pathRead, wordRead, isWord, flagRead, bind,
    Except.bind]
  simp [frameDirectory, framePackStart, framePackEnd, frameFile]

/-- The head of a well-formed frame is read back, and its body is left. -/
theorem readFrameHead_encode
    {frame : DirectoryFrame} (wellFormed : frame.WellFormed)
    (rest : List UInt8) :
    readFrameHead (frame.encode ++ rest) =
      .ok (frame.head, frame.body ++ rest) := by
  cases frame with
  | directory relative =>
      have pathRead := readPath_encodePath wellFormed rest
      change readFrameHead (frameDirectory :: (encodePath relative ++ rest)) = _
      simp [readFrameHead, pathRead, bind, Except.bind,
        DirectoryFrame.head, DirectoryFrame.body]
  | packStart pack =>
      obtain ⟨wordRead, isWord⟩ := readWord wellFormed rest
      change readFrameHead (framePackStart :: (toBigEndian 8 pack ++ rest)) = _
      simp [readFrameHead, wordRead, isWord, bind, Except.bind,
        DirectoryFrame.head, DirectoryFrame.body, frameDirectory,
        framePackStart]
  | packEnd =>
      rfl
  | file relative content flag digest =>
      obtain ⟨accepted, fits, _⟩ := wellFormed
      have headRead :=
        readFrameHead_encodeFileHead accepted fits flag
          (content ++ digest ++ rest)
      rw [← List.append_assoc] at headRead
      exact headRead

/-- The content of a well-formed file frame is read back with its digest. -/
theorem readContent_encode
    {relative : String} {content : List UInt8} {flag : UInt8}
    {digest : List UInt8}
    (wellFormed :
      (DirectoryFrame.file relative content flag digest).WellFormed)
    (rest : List UInt8) :
    readContent relative content.length flag
        (content ++ (digest ++ rest)) =
      .ok (content, digest, rest) := by
  obtain ⟨_, _, isDigest⟩ := wellFormed
  have contentRead :
      readExact content.length (content ++ (digest ++ rest)) =
        .ok (content, digest ++ rest) :=
    readExact_append rfl _
  by_cases noFlag : flag = 0
  · rw [if_pos noFlag] at isDigest
    subst isDigest
    simp only [readContent, contentRead, bind, Except.bind, if_pos noFlag]
    rfl
  · rw [if_neg noFlag] at isDigest
    subst isDigest
    have digestRead :
        readExact 32 (sha256 content ++ rest) =
          .ok (sha256 content, rest) :=
      readExact_append (length_sha256 content) rest
    simp only [readContent, contentRead, bind, Except.bind, if_neg noFlag,
      digestRead, if_true]

theorem readFrames_succ
    {received : List DirectoryFrame} {frame : DirectoryFrame}
    (wellFormed : frame.WellFormed) (fuel : Nat) (rest : List UInt8) :
    readFrames received (fuel + 1) (frame.encode ++ rest) =
      readFrames (received ++ [frame]) fuel rest := by
  have headRead := readFrameHead_encode wellFormed rest
  rw [readFrames]
  simp only [headRead, bind, Except.bind]
  cases frame with
  | file relative content flag digest =>
      have contentRead := readContent_encode wellFormed rest
      simp only [DirectoryFrame.head, DirectoryFrame.body,
        List.append_assoc, contentRead]
  | _ => rfl

/-- The totals of these statistics fit the fields of the END frame. -/
def DirectoryTransferStats.Fits (stats : DirectoryTransferStats) : Prop :=
  stats.files < 2 ^ 64 ∧ stats.directories < 2 ^ 64 ∧
    stats.bytes < 2 ^ 64

instance (stats : DirectoryTransferStats) : Decidable stats.Fits :=
  inferInstanceAs (Decidable (_ ∧ _ ∧ _))

theorem DirectoryTransferStats.fits_count
    {stats : DirectoryTransferStats} (fits : stats.Fits)
    (frame : DirectoryFrame) : (stats.count frame).Fits := by
  have wraps (total : Nat) : total % 2 ^ 64 < 2 ^ 64 :=
    Nat.mod_lt total (by norm_num)
  obtain ⟨filesFit, directoriesFit, bytesFit⟩ := fits
  cases frame with
  | directory relative => exact ⟨filesFit, wraps _, bytesFit⟩
  | packStart pack => exact ⟨filesFit, directoriesFit, bytesFit⟩
  | packEnd => exact ⟨filesFit, directoriesFit, bytesFit⟩
  | file relative content flag digest =>
      exact ⟨wraps _, directoriesFit, wraps _⟩

/-- Counters that wrap always fit. -/
theorem statsOf_fits (frames : List DirectoryFrame) :
    (statsOf frames).Fits := by
  have kept (later : List DirectoryFrame) :
      ∀ stats : DirectoryTransferStats, stats.Fits →
        (later.foldl DirectoryTransferStats.count stats).Fits := by
    induction later with
    | nil =>
        intro stats fits
        exact fits
    | cons frame rest inductionHypothesis =>
        intro stats fits
        exact inductionHypothesis _ (stats.fits_count fits frame)
  exact kept frames .start ⟨by decide, by decide, by decide⟩

theorem statsOf_append (frames : List DirectoryFrame)
    (frame : DirectoryFrame) :
    statsOf (frames ++ [frame]) = (statsOf frames).count frame := by
  rw [statsOf, List.foldl_append]
  rfl

theorem readFrameHead_end
    {stats : DirectoryTransferStats} (fits : stats.Fits)
    (rest : List UInt8) :
    readFrameHead (encodeEnd stats ++ rest) =
      .ok (.finish stats.files stats.directories stats.bytes, rest) := by
  obtain ⟨filesFit, directoriesFit, bytesFit⟩ := fits
  obtain ⟨filesRead, isFiles⟩ :=
    readWord filesFit
      (toBigEndian 8 stats.directories ++
        (toBigEndian 8 stats.bytes ++ rest))
  obtain ⟨directoriesRead, isDirectories⟩ :=
    readWord directoriesFit (toBigEndian 8 stats.bytes ++ rest)
  obtain ⟨bytesRead, isBytes⟩ := readWord bytesFit rest
  have spelled :
      encodeEnd stats ++ rest =
        frameEnd ::
          (toBigEndian 8 stats.files ++
            (toBigEndian 8 stats.directories ++
              (toBigEndian 8 stats.bytes ++ rest))) := by
    simp [encodeEnd]
  rw [spelled]
  simp only [readFrameHead, filesRead, isFiles, directoriesRead,
    isDirectories, bytesRead, isBytes, bind, Except.bind]
  simp [frameDirectory, framePackStart, framePackEnd, frameFile, frameEnd]

/-- The frames behind the START frame. -/
def encodeFrames (frames : List DirectoryFrame) : List UInt8 :=
  frames.flatMap DirectoryFrame.encode

theorem readFrames_encodeFrames
    {received frames : List DirectoryFrame}
    (wellFormed : ∀ frame ∈ frames, frame.WellFormed)
    {fuel : Nat} (enough : frames.length < fuel) (rest : List UInt8) :
    readFrames received fuel
        (encodeFrames frames ++
          (encodeEnd (statsOf (received ++ frames)) ++ rest)) =
      .ok (received ++ frames, rest) := by
  induction frames generalizing received fuel with
  | nil =>
      obtain ⟨fuel, rfl⟩ := Nat.exists_eq_succ_of_ne_zero (Nat.ne_of_gt enough)
      rw [List.append_nil]
      have headRead := readFrameHead_end (statsOf_fits received) rest
      rw [encodeFrames, List.flatMap_nil, List.nil_append, readFrames]
      simp [headRead, bind, Except.bind]
  | cons frame later inductionHypothesis =>
      obtain ⟨fuel, rfl⟩ :=
        Nat.exists_eq_succ_of_ne_zero (Nat.ne_zero_of_lt enough)
      have sameFrames :
          received ++ frame :: later = received ++ [frame] ++ later := by
        simp
      rw [sameFrames, encodeFrames, List.flatMap_cons, List.append_assoc,
        readFrames_succ (wellFormed frame List.mem_cons_self)]
      exact
        inductionHypothesis
          (fun other member =>
            wellFormed other (List.mem_cons_of_mem frame member))
          (Nat.lt_of_succ_lt_succ enough)

theorem length_le_encodeFrames (frames : List DirectoryFrame) :
    frames.length ≤ (encodeFrames frames).length := by
  induction frames with
  | nil => exact Nat.le_refl _
  | cons frame later inductionHypothesis =>
      have positive : 0 < frame.encode.length := by
        cases frame <;> exact Nat.succ_pos _
      rw [encodeFrames, List.flatMap_cons, List.length_append,
        List.length_cons]
      rw [encodeFrames] at inductionHypothesis
      omega

theorem readStart_encodeStart
    {rootName : String}
    (accepted : validateRelativePath .unix rootName = .ok ())
    (single : (Platform.unix.parse rootName).componentCount = 1)
    (rest : List UInt8) :
    readStart (encodeStart rootName ++ rest) = .ok (rootName, rest) := by
  have pathRead := readPath_encodePath accepted rest
  change readStart (frameStart :: (encodePath rootName ++ rest)) = _
  simp [readStart, pathRead, bind, Except.bind, single]

/-- A stream that was written from well-formed frames, with totals that match,
is read back. -/
theorem readStream_encode
    {rootName : String} {frames : List DirectoryFrame}
    (accepted : validateRelativePath .unix rootName = .ok ())
    (single : (Platform.unix.parse rootName).componentCount = 1)
    (wellFormed : ∀ frame ∈ frames, frame.WellFormed)
    (rest : List UInt8) :
    readStream
        (encodeStart rootName ++
          (encodeFrames frames ++ (encodeEnd (statsOf frames) ++ rest))) =
      .ok (rootName, frames, rest) := by
  have startRead :=
    readStart_encodeStart accepted single
      (encodeFrames frames ++ (encodeEnd (statsOf frames) ++ rest))
  have enough :
      frames.length <
        (encodeFrames frames ++
            (encodeEnd (statsOf frames) ++ rest)).length + 1 := by
    have shorter := length_le_encodeFrames frames
    rw [List.length_append]
    omega
  have framesRead :=
    @readFrames_encodeFrames [] frames wellFormed _ enough rest
  rw [List.nil_append] at framesRead
  simp only [readStream, startRead, framesRead, bind, Except.bind]

end Quiczilla
