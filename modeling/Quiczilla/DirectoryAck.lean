import Quiczilla.DirectoryFrames

/-!
# The acknowledgement of a directory

The receiver answers a directory stream with the totals of what it has stored,
or with the text of its error, cut to 4096 bytes.
-/

namespace Quiczilla

open Foundation

def ackOk : UInt8 := 0x21
def ackError : UInt8 := 0x22

def maxAckErrorBytes : Nat := 4 * 1024

/-! ## Text that may be cut inside a character -/

def replacementCharacter : Char := Char.ofNat 0xfffd

def isContinuation (byte : UInt8) : Bool :=
  0x80 ≤ byte && byte ≤ 0xbf

/-- The second bytes that may follow a first byte of three or four. -/
def isSecondByte (first second : UInt8) : Bool :=
  if first = 0xe0 then 0xa0 ≤ second && second ≤ 0xbf
  else if first = 0xed then 0x80 ≤ second && second ≤ 0x9f
  else if first = 0xf0 then 0x90 ≤ second && second ≤ 0xbf
  else if first = 0xf4 then 0x80 ≤ second && second ≤ 0x8f
  else isContinuation second

/-- The number of bytes that the first byte announces, 0 if it cannot be
first. -/
def scalarWidth (first : UInt8) : Nat :=
  if first ≤ 0x7f then 1
  else if 0xc2 ≤ first ∧ first ≤ 0xdf then 2
  else if 0xe0 ≤ first ∧ first ≤ 0xef then 3
  else if 0xf0 ≤ first ∧ first ≤ 0xf4 then 4
  else 0

/-- How many bytes in front form a beginning of a scalar. -/
def scalarPrefix : List UInt8 → Nat
  | [] => 0
  | first :: rest =>
      let width := scalarWidth first
      if width ≤ 1 then 1
      else
        match rest with
        | second :: later =>
            if width = 2 then if isContinuation second then 2 else 1
            else if isSecondByte first second then
              2 + ((later.take (width - 2)).takeWhile isContinuation).length
            else 1
        | [] => 1

/-- The scalar in front, if it is complete. -/
def scalarInFront (bytes : List UInt8) : Option (List Char) :=
  (String.fromUTF8? ⟨(bytes.take (scalarPrefix bytes)).toArray⟩).map
    String.toList

/-- Every maximal beginning of a scalar that is not one is replaced. -/
def replaceInvalid : Nat → List UInt8 → List Char
  | 0, _ => []
  | _, [] => []
  | fuel + 1, byte :: rest =>
      (scalarInFront (byte :: rest)).getD [replacementCharacter] ++
        replaceInvalid fuel
          ((byte :: rest).drop (scalarPrefix (byte :: rest)))

/-- `String::from_utf8_lossy`. -/
def fromUtf8Lossy (bytes : List UInt8) : String :=
  match String.fromUTF8? ⟨bytes.toArray⟩ with
  | some text => text
  | none => String.ofList (replaceInvalid bytes.length bytes)

example : fromUtf8Lossy [0x61, 0xe2, 0x82, 0x62, 0xff] = "a\uFFFDb\uFFFD" := by
  decide +kernel

/-- `write_directory_ack`. -/
def encodeDirectoryAck :
    Except String DirectoryTransferStats → List UInt8
  | .ok stats =>
      ackOk :: (toBigEndian 8 stats.files ++ toBigEndian 8 stats.bytes)
  | .error reason =>
      ackError ::
        (toBigEndian 4 ((utf8Bytes reason).take maxAckErrorBytes).length ++
          (utf8Bytes reason).take maxAckErrorBytes)

/-- What the sender makes of the error text. -/
def rejection (bytes : List UInt8) : String :=
  "directory receiver rejected transfer: " ++ fromUtf8Lossy bytes

/-- `read_directory_ack`; the acknowledgement carries no other totals. -/
def readDirectoryAck :
    List UInt8 → Except String DirectoryTransferStats
  | [] => .error "unexpected end of file"
  | tag :: input =>
      if tag = ackOk then do
        let (values, _) ← readExact 16 input
        .ok
          { files := ofBigEndian (values.take 8)
            directories := 0
            bytes := ofBigEndian (values.drop 8)
            packs := 0 }
      else if tag = ackError then do
        let (lengthBytes, input) ← readExact 4 input
        if maxAckErrorBytes < ofBigEndian lengthBytes then
          .error "directory receiver returned an oversized error"
        else
          let (bytes, _) ← readExact (ofBigEndian lengthBytes) input
          .error (rejection bytes)
      else .error "directory receiver returned an invalid acknowledgement"

/-- Whether a read that has taken these bytes waits for more of them. -/
def ackPending : List UInt8 → Bool
  | [] => true
  | tag :: input =>
      if tag = ackOk then input.length < 16
      else if tag = ackError then
        if input.length < 4 then true
        else
          ofBigEndian (input.take 4) ≤ maxAckErrorBytes &&
            input.length < 4 + ofBigEndian (input.take 4)
      else false

/-- Fewer bytes than an acknowledgement has are not read as one. -/
theorem length_of_readDirectoryAck
    {input : List UInt8} {ack : DirectoryTransferStats}
    (read : readDirectoryAck input = .ok ack) : 17 ≤ input.length := by
  cases input with
  | nil => cases read
  | cons tag behind =>
      rw [readDirectoryAck] at read
      split_ifs at read
      · obtain ⟨⟨values, rest⟩, taken, -⟩ := bind_eq_ok read
        obtain ⟨rfl, isLength⟩ := readExact_split taken
        rw [List.length_cons, List.length_append]
        omega
      · obtain ⟨⟨lengthBytes, rest⟩, -, read⟩ := bind_eq_ok read
        dsimp only at read
        split at read
        · cases read
        · obtain ⟨⟨bytes, others⟩, -, read⟩ := bind_eq_ok read
          cases read

-- behind the first four bytes, the length of this error is the tag of success
example :
    readDirectoryAck
        ((encodeDirectoryAck
          (.error "Too many open files (os error 24)")).drop 4) =
      .ok
        { files := 0x546f6f206d616e79
          directories := 0
          bytes := 0x206f70656e206669
          packs := 0 } := by
  decide +kernel

/-! ## An acknowledgement that may be cut off -/

/-- What reading an acknowledgement can give, of which only the first bytes may
have arrived. -/
inductive AckOutcome :
    Except String DirectoryTransferStats →
      Except String DirectoryTransferStats → Prop
  | missing (result : Except String DirectoryTransferStats) :
      AckOutcome result (.error "unexpected end of file")
  | cut (result : Except String DirectoryTransferStats) :
      AckOutcome result (.error "early eof")
  | stored (stats : DirectoryTransferStats) :
      AckOutcome (.ok stats) (.ok ⟨stats.files, 0, stats.bytes, 0⟩)
  | rejected (reason : String) :
      AckOutcome (.error reason)
        (.error (rejection ((utf8Bytes reason).take maxAckErrorBytes)))

/-- A part of the bytes is not enough for a read. -/
theorem readExact_take
    {count : Nat} {bytes : List UInt8} (exact : bytes.length = count)
    (rest : List UInt8) (arrived : Nat) :
    readExact count ((bytes ++ rest).take arrived) =
      if count ≤ arrived then .ok (bytes, rest.take (arrived - count))
      else .error "early eof" := by
  by_cases enough : count ≤ arrived
  · have split :
        (bytes ++ rest).take arrived =
          bytes ++ rest.take (arrived - count) := by
      rw [List.take_append, exact, List.take_of_length_le]
      rw [exact]
      exact enough
    rw [if_pos enough, split]
    exact readExact_append exact _
  · rw [if_neg enough, readExact, if_neg]
    rw [List.length_take]
    omega

theorem readDirectoryAck_stored
    {stats : DirectoryTransferStats} (fits : stats.Fits) (arrived : Nat) :
    AckOutcome (.ok stats)
      (readDirectoryAck ((encodeDirectoryAck (.ok stats)).take arrived)) := by
  cases arrived with
  | zero => exact AckOutcome.missing _
  | succ arrived =>
      obtain ⟨filesFit, -, bytesFit⟩ := fits
      have isLength :
          (toBigEndian 8 stats.files ++
              toBigEndian 8 stats.bytes).length =
            16 := by
        rw [List.length_append, length_toBigEndian, length_toBigEndian]
      have read := readExact_take isLength [] arrived
      rw [List.append_nil, List.take_nil] at read
      rw [encodeDirectoryAck, List.take_succ_cons, readDirectoryAck,
        if_pos rfl, read]
      by_cases enough : 16 ≤ arrived
      · have isFiles :
            ofBigEndian
                ((toBigEndian 8 stats.files ++
                  toBigEndian 8 stats.bytes).take 8) =
              stats.files := by
          rw [List.take_left' (length_toBigEndian 8 _)]
          exact (readWord filesFit []).2
        have isBytes :
            ofBigEndian
                ((toBigEndian 8 stats.files ++
                  toBigEndian 8 stats.bytes).drop 8) =
              stats.bytes := by
          rw [List.drop_left' (length_toBigEndian 8 _)]
          exact (readWord bytesFit []).2
        simp only [if_pos enough, bind, Except.bind, isFiles, isBytes]
        exact AckOutcome.stored stats
      · rw [if_neg enough]
        exact AckOutcome.cut _

theorem readDirectoryAck_rejected (reason : String) (arrived : Nat) :
    AckOutcome (.error reason)
      (readDirectoryAck
        ((encodeDirectoryAck (.error reason)).take arrived)) := by
  cases arrived with
  | zero => exact AckOutcome.missing _
  | succ arrived =>
      generalize isText :
        (utf8Bytes reason).take maxAckErrorBytes = text
      have bounded : text.length ≤ maxAckErrorBytes := by
        rw [← isText]
        exact List.length_take_le _ _
      have isLength :
          ofBigEndian (toBigEndian 4 text.length) = text.length :=
        ofBigEndian_toBigEndian_of_lt
          (Nat.lt_of_le_of_lt bounded (by decide))
      have readLength :=
        readExact_take (length_toBigEndian 4 text.length) text arrived
      have readText :=
        readExact_take (Eq.refl text.length) [] (arrived - 4)
      rw [List.append_nil, List.take_nil] at readText
      have other : ¬ackError = ackOk := by decide
      rw [encodeDirectoryAck, isText, List.take_succ_cons,
        readDirectoryAck, if_neg other, if_pos rfl, readLength]
      by_cases enough : 4 ≤ arrived
      · simp only [if_pos enough, bind, Except.bind, isLength,
          if_neg (Nat.not_lt.mpr bounded), readText]
        by_cases whole : text.length ≤ arrived - 4
        · rw [if_pos whole, ← isText]
          exact AckOutcome.rejected reason
        · rw [if_neg whole]
          exact AckOutcome.cut _
      · rw [if_neg enough]
        exact AckOutcome.cut _

/-- The beginning of an acknowledgement is never taken for another one. -/
theorem readDirectoryAck_take
    {result : Except String DirectoryTransferStats}
    (fits : ∀ stats, result = .ok stats → stats.Fits) (arrived : Nat) :
    AckOutcome result
      (readDirectoryAck ((encodeDirectoryAck result).take arrived)) := by
  cases result with
  | ok stats => exact readDirectoryAck_stored (fits stats rfl) arrived
  | error reason => exact readDirectoryAck_rejected reason arrived

end Quiczilla
