import Quiczilla.Foundation.JsonText
import Quiczilla.Types

/-!
# Control messages as text

`ControlMessage::serialize` and `ControlMessage::parse`.  Two of the messages
carry a JSON object, which `serde_json` writes in the order of the fields and
without blanks; how it escapes a string and how it reads an object back are
parameters.
-/

namespace Quiczilla

open Foundation

structure MetadataPayload where
  fileName : String
  fileSize : String
  resume : Bool
  checksum : Bool
  deriving DecidableEq, Repr

structure ResumeReadyPayload where
  offset : String
  prefixHash : Option String
  deriving DecidableEq, Repr

/-- `serde_json`: a string with its quotes, and `from_str` at the two payload
types. -/
structure SerdeJson where
  quoted : String → String
  metadataFromStr : String → Option MetadataPayload
  resumeReadyFromStr : String → Option ResumeReadyPayload

def jsonBool : Bool → String
  | true => "true"
  | false => "false"

/-- `to_string` of a `MetadataPayload`. -/
def SerdeJson.metadataToString
    (json : SerdeJson) (payload : MetadataPayload) : String :=
  "\x7b\"FileName\":" ++ json.quoted payload.fileName ++
    ",\"FileSize\":" ++ json.quoted payload.fileSize ++
    ",\"Resume\":" ++ jsonBool payload.resume ++
    ",\"Checksum\":" ++ jsonBool payload.checksum ++ "\x7d"

/-- `to_string` of a `ResumeReadyPayload`, which skips an absent hash. -/
def SerdeJson.resumeReadyToString
    (json : SerdeJson) (payload : ResumeReadyPayload) : String :=
  match payload.prefixHash with
  | some hash =>
      "\x7b\"Offset\":" ++ json.quoted payload.offset ++
        ",\"PrefixHash\":" ++ json.quoted hash ++ "\x7d"
  | none => "\x7b\"Offset\":" ++ json.quoted payload.offset ++ "\x7d"

/-- What is assumed of `serde_json`: it reads back what it wrote, and an
escape takes at most six times the bytes of its character. -/
structure SerdeJson.Lawful (json : SerdeJson) : Prop where
  metadataReadsBack :
    ∀ payload,
      json.metadataFromStr (json.metadataToString payload) = some payload
  resumeReadyReadsBack :
    ∀ payload,
      json.resumeReadyFromStr (json.resumeReadyToString payload) =
        some payload
  escapes :
    ∀ text, (json.quoted text).utf8ByteSize ≤ 6 * text.utf8ByteSize + 2

def ControlMessage.serialize (json : SerdeJson) : ControlMessage → String
  | .metadata fileName fileSize mayResume checksum =>
      "METADATA:" ++
        json.metadataToString
          ⟨fileName, toString fileSize, mayResume, checksum⟩
  | .ready => "READY"
  | .resumeReady offset prefixHash =>
      "RESUME_READY:" ++
        json.resumeReadyToString ⟨toString offset, prefixHash⟩
  | .resumeOk => "RESUME_OK"
  | .restartFromZero => "RESTART_FROM_ZERO"
  | .pause => "PAUSE"
  | .resume => "RESUME"
  | .rejectedUnwanted => "REJECTED:UNWANTED"
  | .rejectedAlreadyReceiving => "REJECTED:ALREADY_RECEIVING"
  | .rejectedAlreadySending => "REJECTED:ALREADY_SENDING"
  | .fileSent hash => "FILE_SENT:" ++ hash
  | .receivedFileOk => "RECEIVED_FILE:OK"
  | .receivedFileFailed => "RECEIVED_FILE:FAILED"

/-- The payload of `METADATA:`. -/
def MetadataPayload.message (payload : MetadataPayload) :
    Option ControlMessage :=
  match parseU64 payload.fileSize with
  | some size =>
      some
        (.metadata payload.fileName size payload.resume payload.checksum)
  | none => none

/-- The payload of `RESUME_READY:`. -/
def ResumeReadyPayload.message (payload : ResumeReadyPayload) :
    Option ControlMessage :=
  match parseU64 payload.offset with
  | some offset => some (.resumeReady offset payload.prefixHash)
  | none => none

/-- The messages with text behind their name. -/
def ControlMessage.parsePrefixed (json : SerdeJson) (s : String) :
    Option ControlMessage :=
  match stripPrefix "METADATA:" s with
  | some object =>
      (json.metadataFromStr object).bind MetadataPayload.message
  | none =>
      match stripPrefix "RESUME_READY:" s with
      | some object =>
          (json.resumeReadyFromStr object).bind ResumeReadyPayload.message
      | none => (stripPrefix "FILE_SENT:" s).map ControlMessage.fileSent

def ControlMessage.parse (json : SerdeJson) (s : String) :
    Option ControlMessage :=
  if s = "READY" then some .ready
  else if s = "RESUME_OK" then some .resumeOk
  else if s = "RESTART_FROM_ZERO" then some .restartFromZero
  else if s = "PAUSE" then some .pause
  else if s = "RESUME" then some .resume
  else if s = "REJECTED:UNWANTED" then some .rejectedUnwanted
  else if s = "REJECTED:ALREADY_RECEIVING" then
    some .rejectedAlreadyReceiving
  else if s = "REJECTED:ALREADY_SENDING" then some .rejectedAlreadySending
  else if s = "RECEIVED_FILE:OK" then some .receivedFileOk
  else if s = "RECEIVED_FILE:FAILED" then some .receivedFileFailed
  else ControlMessage.parsePrefixed json s

/-- Sizes and offsets are unsigned 64-bit. -/
def ControlMessage.InRange : ControlMessage → Prop
  | .metadata _ fileSize _ _ => fileSize < 2 ^ 64
  | .resumeReady offset _ => offset < 2 ^ 64
  | _ => True

/-! ## Parsing what was serialised -/

/-- A text that begins otherwise than a word is not the word. -/
theorem ne_of_prefix
    {beginning word : String}
    (differs : beginning.toList.isPrefixOf word.toList = false)
    (rest : String) :
    beginning ++ rest ≠ word := by
  rintro rfl
  rw [String.toList_append] at differs
  have isPrefix :
      beginning.toList.isPrefixOf
        (beginning.toList ++ rest.toList) = true :=
    List.isPrefixOf_iff_prefix.mpr (List.prefix_append _ _)
  rw [isPrefix] at differs
  cases differs

/-- The messages without further text. -/
def controlWords : List String :=
  ["READY", "RESUME_OK", "RESTART_FROM_ZERO", "PAUSE", "RESUME",
    "REJECTED:UNWANTED", "REJECTED:ALREADY_RECEIVING",
    "REJECTED:ALREADY_SENDING", "RECEIVED_FILE:OK",
    "RECEIVED_FILE:FAILED"]

theorem parse_of_not_word
    (json : SerdeJson) {s : String} (notWord : s ∉ controlWords) :
    ControlMessage.parse json s = ControlMessage.parsePrefixed json s := by
  simp only [controlWords, List.mem_cons, List.not_mem_nil, or_false,
    not_or] at notWord
  simp only [ControlMessage.parse, notWord, if_false]

/-- A name with a colon begins no word of the protocol. -/
theorem parse_prefixed
    (json : SerdeJson) {beginning : String}
    (differs :
      controlWords.all
        (fun word => !beginning.toList.isPrefixOf word.toList) = true)
    (rest : String) :
    ControlMessage.parse json (beginning ++ rest) =
      ControlMessage.parsePrefixed json (beginning ++ rest) := by
  apply parse_of_not_word
  intro isWord
  have noPrefix := List.all_eq_true.mp differs _ isWord
  rw [Bool.not_eq_true'] at noPrefix
  exact ne_of_prefix noPrefix rest rfl

theorem parsePrefixed_metadata (json : SerdeJson) (object : String) :
    ControlMessage.parsePrefixed json ("METADATA:" ++ object) =
      (json.metadataFromStr object).bind MetadataPayload.message := by
  rw [ControlMessage.parsePrefixed, stripPrefix_append]

/-- Of two names neither of which begins the other, a text begins with at most
one. -/
theorem stripPrefix_other
    {beginning other : String}
    (differs :
      (beginning.toList.isPrefixOf other.toList ||
        other.toList.isPrefixOf beginning.toList) = false)
    (rest : String) :
    stripPrefix other (beginning ++ rest) = none := by
  obtain ⟨notShorter, notLonger⟩ := Bool.or_eq_false_iff.mp differs
  have noPrefix :
      ¬ other.toList.isPrefixOf (beginning ++ rest).toList = true := by
    intro isPrefix
    rw [List.isPrefixOf_iff_prefix, String.toList_append] at isPrefix
    rcases
      List.prefix_or_prefix_of_prefix
        (List.prefix_append beginning.toList rest.toList) isPrefix with
      shorter | longer
    · rw [← List.isPrefixOf_iff_prefix, notShorter] at shorter
      cases shorter
    · rw [← List.isPrefixOf_iff_prefix, notLonger] at longer
      cases longer
  rw [stripPrefix, if_neg noPrefix]

theorem parsePrefixed_resumeReady (json : SerdeJson) (object : String) :
    ControlMessage.parsePrefixed json ("RESUME_READY:" ++ object) =
      (json.resumeReadyFromStr object).bind ResumeReadyPayload.message := by
  rw [ControlMessage.parsePrefixed,
    stripPrefix_other (by decide), stripPrefix_append]

theorem parsePrefixed_fileSent (json : SerdeJson) (hash : String) :
    ControlMessage.parsePrefixed json ("FILE_SENT:" ++ hash) =
      some (.fileSent hash) := by
  rw [ControlMessage.parsePrefixed, stripPrefix_other (by decide),
    stripPrefix_other (by decide), stripPrefix_append]
  rfl

/-- Parsing undoes serialising. -/
theorem parse_serialized
    {json : SerdeJson} (lawful : json.Lawful)
    {message : ControlMessage} (inRange : message.InRange) :
    ControlMessage.parse json (message.serialize json) = some message := by
  cases message with
  | metadata fileName fileSize mayResume checksum =>
      rw [ControlMessage.serialize, parse_prefixed json (by decide),
        parsePrefixed_metadata, lawful.metadataReadsBack, Option.bind_some,
        MetadataPayload.message, parseU64, parseUnsigned_toString inRange]
  | resumeReady offset prefixHash =>
      rw [ControlMessage.serialize, parse_prefixed json (by decide),
        parsePrefixed_resumeReady, lawful.resumeReadyReadsBack,
        Option.bind_some, ResumeReadyPayload.message, parseU64,
        parseUnsigned_toString inRange]
  | fileSent hash =>
      rw [ControlMessage.serialize, parse_prefixed json (by decide),
        parsePrefixed_fileSent]
  | _ => rfl

/-- No message is spelled like a keep-alive. -/
theorem serialize_ne_empty
    (json : SerdeJson) (message : ControlMessage) :
    message.serialize json ≠ "" := by
  cases message <;> simp [ControlMessage.serialize]

/-! ## Sizes -/

/-- The bounds that the messages of a peer keep: a file name has at most 255
bytes, a digest far fewer than 256. -/
def ControlMessage.Short : ControlMessage → Prop
  | .metadata fileName fileSize _ _ =>
      fileName.utf8ByteSize ≤ 255 ∧ fileSize < 2 ^ 64
  | .resumeReady offset prefixHash =>
      offset < 2 ^ 64 ∧ ∀ hash ∈ prefixHash, hash.utf8ByteSize ≤ 256
  | .fileSent hash => hash.utf8ByteSize ≤ 256
  | _ => True

theorem quoted_number_size
    {json : SerdeJson} (lawful : json.Lawful)
    {value : Nat} (inRange : value < 2 ^ 64) :
    (json.quoted (toString value)).utf8ByteSize ≤ 482 := by
  have bound : 2 ^ 64 < 10 ^ 20 := by
    decide
  have small : value < 10 ^ 20 :=
    Nat.lt_trans inRange bound
  have digits := @utf8ByteSize_toString_le value 20 (by decide) small
  have escaped := lawful.escapes (toString value)
  omega

theorem jsonBool_size (value : Bool) :
    (jsonBool value).utf8ByteSize ≤ 5 := by
  cases value <;> decide

theorem size_append_le
    {first second : String} {firstBound secondBound : Nat}
    (firstSize : first.utf8ByteSize ≤ firstBound)
    (secondSize : second.utf8ByteSize ≤ secondBound) :
    (first ++ second).utf8ByteSize ≤ firstBound + secondBound := by
  rw [String.utf8ByteSize_append]
  exact Nat.add_le_add firstSize secondSize

theorem metadataToString_size
    {json : SerdeJson} (lawful : json.Lawful) (payload : MetadataPayload) :
    (json.metadataToString payload).utf8ByteSize ≤
      6 * payload.fileName.utf8ByteSize +
        (json.quoted payload.fileSize).utf8ByteSize + 60 := by
  have first : "\x7b\"FileName\":".utf8ByteSize ≤ 12 := by decide
  have second : ",\"FileSize\":".utf8ByteSize ≤ 12 := by decide
  have third : ",\"Resume\":".utf8ByteSize ≤ 10 := by decide
  have fourth : ",\"Checksum\":".utf8ByteSize ≤ 12 := by decide
  have last : "\x7d".utf8ByteSize ≤ 1 := by decide
  have name := size_append_le first (lawful.escapes payload.fileName)
  have size :=
    size_append_le (size_append_le name second)
      (le_refl (json.quoted payload.fileSize).utf8ByteSize)
  have mayResume :=
    size_append_le (size_append_le size third)
      (jsonBool_size payload.resume)
  have checksum :=
    size_append_le (size_append_le mayResume fourth)
      (jsonBool_size payload.checksum)
  refine Nat.le_trans (size_append_le checksum last) ?_
  omega

theorem resumeReadyToString_size
    {json : SerdeJson} (lawful : json.Lawful) (payload : ResumeReadyPayload)
    (short : ∀ hash ∈ payload.prefixHash, hash.utf8ByteSize ≤ 256) :
    (json.resumeReadyToString payload).utf8ByteSize ≤
      (json.quoted payload.offset).utf8ByteSize + 1600 := by
  have first : "\x7b\"Offset\":".utf8ByteSize ≤ 10 := by decide
  have second : ",\"PrefixHash\":".utf8ByteSize ≤ 14 := by decide
  have last : "\x7d".utf8ByteSize ≤ 1 := by decide
  have offset :=
    size_append_le first (le_refl (json.quoted payload.offset).utf8ByteSize)
  unfold SerdeJson.resumeReadyToString
  split
  · rename_i hash isHash
    have size := short hash isHash
    have whole :=
      size_append_le
        (size_append_le (size_append_le offset second)
          (lawful.escapes hash))
        last
    refine Nat.le_trans whole ?_
    omega
  · refine Nat.le_trans (size_append_le offset last) ?_
    omega

/-- A short message fits the limit of the reader. -/
theorem serialize_size
    {json : SerdeJson} (lawful : json.Lawful)
    {message : ControlMessage} (short : message.Short) :
    (message.serialize json).utf8ByteSize ≤ maxControlMessageBytes := by
  suffices small : (message.serialize json).utf8ByteSize ≤ 65536 from small
  cases message with
  | metadata fileName fileSize mayResume checksum =>
      obtain ⟨name, inRange⟩ := short
      have number := quoted_number_size lawful inRange
      refine
        Nat.le_trans
          (size_append_le (show "METADATA:".utf8ByteSize ≤ 9 by decide)
            (metadataToString_size lawful
              ⟨fileName, toString fileSize, mayResume, checksum⟩))
          ?_
      dsimp only
      omega
  | resumeReady offset prefixHash =>
      obtain ⟨inRange, hash⟩ := short
      have number := quoted_number_size lawful inRange
      refine
        Nat.le_trans
          (size_append_le (show "RESUME_READY:".utf8ByteSize ≤ 13 by decide)
            (resumeReadyToString_size lawful
              ⟨toString offset, prefixHash⟩ hash))
          ?_
      dsimp only
      omega
  | fileSent hash =>
      have size : hash.utf8ByteSize ≤ 256 := short
      refine
        Nat.le_trans
          (size_append_le (show "FILE_SENT:".utf8ByteSize ≤ 10 by decide)
            size)
          ?_
      omega
  | _ =>
      simp only [ControlMessage.serialize]
      decide

/-! ## A reader of what was written -/

def readJsonBool (text : String) : Option (Bool × String) :=
  match stripPrefix "true" text with
  | some rest => some (true, rest)
  | none => (stripPrefix "false" text).map fun rest => (false, rest)

/-- A field with a string behind its name. -/
def readTextField (name text : String) : Option (String × String) :=
  (stripPrefix name text).bind readString

/-- A field with `true` or `false` behind its name. -/
def readBoolField (name text : String) : Option (Bool × String) :=
  (stripPrefix name text).bind readJsonBool

def readMetadata (text : String) : Option MetadataPayload := do
  let (fileName, rest) ← readTextField "\x7b\"FileName\":" text
  let (fileSize, rest) ← readTextField ",\"FileSize\":" rest
  let (resume, rest) ← readBoolField ",\"Resume\":" rest
  let (checksum, rest) ← readBoolField ",\"Checksum\":" rest
  if rest = "\x7d" then some ⟨fileName, fileSize, resume, checksum⟩
  else none

def readResumeReady (text : String) : Option ResumeReadyPayload := do
  let (offset, rest) ← readTextField "\x7b\"Offset\":" text
  if rest = "\x7d" then some ⟨offset, none⟩
  else
    let (hash, rest) ← readTextField ",\"PrefixHash\":" rest
    if rest = "\x7d" then some ⟨offset, some hash⟩ else none

/-- JSON as it is written here, and a reader that takes it in this form
only. -/
def SerdeJson.compact : SerdeJson where
  quoted := quoteText
  metadataFromStr := readMetadata
  resumeReadyFromStr := readResumeReady

theorem readJsonBool_jsonBool (value : Bool) (rest : String) :
    readJsonBool (jsonBool value ++ rest) = some (value, rest) := by
  cases value with
  | true => rw [readJsonBool, jsonBool, stripPrefix_append]
  | false =>
      rw [readJsonBool, jsonBool, stripPrefix_other (by decide),
        stripPrefix_append]
      rfl

theorem readTextField_append (name text rest : String) :
    readTextField name (name ++ quoteText text ++ rest) =
      some (text, rest) := by
  rw [readTextField, String.append_assoc, stripPrefix_append,
    Option.bind_some, readString_quoteText]

theorem readBoolField_append (name : String) (value : Bool) (rest : String) :
    readBoolField name (name ++ jsonBool value ++ rest) =
      some (value, rest) := by
  rw [readBoolField, String.append_assoc, stripPrefix_append,
    Option.bind_some, readJsonBool_jsonBool]

/-- Four fields and a closing bracket, the fields apart. -/
theorem append_fields (a b c d e f g h i : String) :
    a ++ b ++ c ++ d ++ e ++ f ++ g ++ h ++ i =
      a ++ b ++ (c ++ d ++ (e ++ f ++ (g ++ h ++ i))) := by
  simp only [String.append_assoc]

theorem readMetadata_written (payload : MetadataPayload) :
    readMetadata (SerdeJson.compact.metadataToString payload) =
      some payload := by
  have isText :
      SerdeJson.compact.metadataToString payload =
        "\x7b\"FileName\":" ++ quoteText payload.fileName ++
          (",\"FileSize\":" ++ quoteText payload.fileSize ++
            (",\"Resume\":" ++ jsonBool payload.resume ++
              (",\"Checksum\":" ++ jsonBool payload.checksum ++
                "\x7d"))) :=
    append_fields _ _ _ _ _ _ _ _ _
  have name := readTextField_append "\x7b\"FileName\":" payload.fileName
  have size := readTextField_append ",\"FileSize\":" payload.fileSize
  have mayResume := readBoolField_append ",\"Resume\":" payload.resume
  have checksum := readBoolField_append ",\"Checksum\":" payload.checksum
  rw [isText, readMetadata, name]
  simp only [Option.bind_eq_bind, Option.bind_some]
  rw [size]
  simp only [Option.bind_some]
  rw [mayResume]
  simp only [Option.bind_some]
  rw [checksum]
  rfl

theorem append_two_fields (a b c d e : String) :
    a ++ b ++ c ++ d ++ e = a ++ b ++ (c ++ d ++ e) := by
  simp only [String.append_assoc]

theorem readResumeReady_written (payload : ResumeReadyPayload) :
    readResumeReady (SerdeJson.compact.resumeReadyToString payload) =
      some payload := by
  obtain ⟨offset, prefixHash⟩ := payload
  have number := readTextField_append "\x7b\"Offset\":" offset
  cases prefixHash with
  | none =>
      have isText :
          SerdeJson.compact.resumeReadyToString ⟨offset, none⟩ =
            "\x7b\"Offset\":" ++ quoteText offset ++ "\x7d" :=
        rfl
      rw [isText, readResumeReady, number]
      rfl
  | some hash =>
      have isText :
          SerdeJson.compact.resumeReadyToString ⟨offset, some hash⟩ =
            "\x7b\"Offset\":" ++ quoteText offset ++
              (",\"PrefixHash\":" ++ quoteText hash ++ "\x7d") :=
        append_two_fields _ _ _ _ _
      have isHash := readTextField_append ",\"PrefixHash\":" hash "\x7d"
      have notEnd :
          ",\"PrefixHash\":" ++ quoteText hash ++ "\x7d" ≠ "\x7d" := by
        rw [String.append_assoc]
        exact ne_of_prefix (by decide) _
      rw [isText, readResumeReady, number]
      simp only [Option.bind_eq_bind, Option.bind_some, if_neg notEnd]
      rw [isHash]
      rfl

theorem compact_lawful : SerdeJson.compact.Lawful where
  metadataReadsBack := readMetadata_written
  resumeReadyReadsBack := readResumeReady_written
  escapes := quoteText_size

end Quiczilla
