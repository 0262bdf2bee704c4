import Quiczilla.Foundation.Sha1
import Quiczilla.Foundation.Text
import Quiczilla.Types

/-!
# Certificate thumbprints and the list of allowed ones

`compute_thumbprint` and `normalize_thumbprint`, and the part of the worker's
`main` that builds the list of thumbprints it hands to its listener.
-/

namespace Quiczilla

open Foundation

def computeThumbprint (table : Uppercase) (certDer : List UInt8) :
    String :=
  table.toUppercase (hexEncode (sha1 certDer))

/-- The value without ASCII white space and colons, in upper case. -/
@[irreducible]
def normalizedText (table : Uppercase) (value : String) : String :=
  table.toUppercase
    (String.ofList
      (value.toList.filter fun character =>
        !isAsciiWhitespace character && character != ':'))

def normalizeThumbprint (table : Uppercase) (value : String) :
    Except String String :=
  if (normalizedText table value).utf8ByteSize ≠ 40 ∨
      (normalizedText table value).toList.all isAsciiHexdigit = false then
    .error
      "certificate thumbprint must contain exactly 40 hexadecimal characters"
  else .ok (normalizedText table value)

/-- A line of the file that names a thumbprint: neither blank nor a comment. -/
def IsThumbprintLine (line : String) : Prop :=
  trim line ≠ "" ∧ (trim line).toList.head? ≠ some '#'

instance (line : String) : Decidable (IsThumbprintLine line) :=
  inferInstanceAs (Decidable (_ ∧ _))

/-- The loop over the enumerated lines of the file. -/
def collectThumbprints (table : Uppercase) (filePath : String) :
    Nat → List String → List String → Except String (List String)
  | _, [], allowed => .ok allowed
  | lineNumber, line :: rest, allowed =>
      if IsThumbprintLine line then
        match normalizeThumbprint table (trim line) with
        | .error _ =>
            .error
              ("invalid thumbprint at " ++ filePath ++ ":" ++
                toString (lineNumber + 1))
        | .ok thumbprint =>
            if thumbprint ∈ allowed then
              collectThumbprints table filePath (lineNumber + 1) rest
                allowed
            else
              collectThumbprints table filePath (lineNumber + 1) rest
                (allowed ++ [thumbprint])
      else
        collectThumbprints table filePath (lineNumber + 1) rest allowed

/-- The arguments that name clients: the path of `--allow-thumbprints` with
what `read_to_string` returns for it, and the value of `--peer-thumbprint`. -/
structure ClientList where
  allowThumbprintsFile : Option (String × Except String String)
  expectedThumbprint : String

def ClientList.fromFile (table : Uppercase) (clients : ClientList) :
    Except String (List String) :=
  match clients.allowThumbprintsFile with
  | none => .ok []
  | some (_, .error reason) => .error reason
  | some (filePath, .ok content) =>
      collectThumbprints table filePath 0 (lines content) []

def ClientList.withFlag
    (table : Uppercase) (clients : ClientList) (allowed : List String) :
    Except String (List String) :=
  if clients.expectedThumbprint = "" then .ok allowed
  else
    match normalizeThumbprint table clients.expectedThumbprint with
    | .error reason => .error reason
    | .ok thumbprint => .ok (allowed ++ [thumbprint])

/-- The list that `MsQuicListener::start` gets; an error ends the worker. -/
def ClientList.allowedThumbprints
    (table : Uppercase) (clients : ClientList) :
    Except String (List String) :=
  match clients.fromFile table with
  | .error reason => .error reason
  | .ok listed =>
      match clients.withFlag table listed with
      | .error reason => .error reason
      | .ok [] =>
          .error
            ("client authorization is required; use --peer-thumbprint or " ++
              "--allow-thumbprints")
      | .ok allowed => .ok allowed

/-- A text of the file or of the flag that names a thumbprint. -/
inductive ClientList.Names (clients : ClientList) : String → Prop
  | line {filePath content line : String} :
      clients.allowThumbprintsFile = some (filePath, .ok content) →
      line ∈ lines content → IsThumbprintLine line →
      clients.Names (trim line)
  | flag :
      clients.expectedThumbprint ≠ "" →
      clients.Names clients.expectedThumbprint

/-! ## Normal forms -/

/-- The digits of a normal form. -/
def upperHexDigits : List Char :=
  ['0', '1', '2', '3', '4', '5', '6', '7', '8', '9',
    'A', 'B', 'C', 'D', 'E', 'F']

theorem mem_upperHexDigits
    {character : Char} (isDigit : isAsciiHexdigit character = true)
    (notLower : character.isLower = false) :
    character ∈ upperHexDigits := by
  have member : character ∈ hexDigits := by
    simpa [isAsciiHexdigit] using isDigit
  have upper :
      (hexDigits.all fun digit =>
          digit.isLower || upperHexDigits.contains digit) =
        true := by
    decide
  have isUpper := List.all_eq_true.mp upper character member
  rw [notLower, Bool.false_or] at isUpper
  exact List.contains_iff_mem.mp isUpper

theorem toUppercase_not_lower
    (table : Uppercase) (text : String) :
    ∀ character ∈ (table.toUppercase text).toList,
      character.isLower = false := by
  intro character member
  rw [Uppercase.toUppercase, String.toList_ofList] at member
  obtain ⟨source, _, isUpper⟩ := List.mem_flatMap.mp member
  exact table.notLower source character isUpper

theorem normalizeThumbprint_digits
    {table : Uppercase} {value thumbprint : String}
    (normalized : normalizeThumbprint table value = .ok thumbprint) :
    ∀ character ∈ thumbprint.toList, character ∈ upperHexDigits := by
  unfold normalizeThumbprint at normalized
  split at normalized
  · cases normalized
  · rename_i valid
    rw [not_or, Bool.not_eq_false] at valid
    have digits := List.all_eq_true.mp valid.2
    rw [← Except.ok.inj normalized]
    intro character member
    apply mem_upperHexDigits (digits character member)
    rw [normalizedText] at member
    exact toUppercase_not_lower table _ character member

theorem toUpper_toLower_digits
    {digits : List Char}
    (areDigits : ∀ character ∈ digits, character ∈ upperHexDigits) :
    (digits.map Char.toLower).map Char.toUpper = digits := by
  have restored :
      (upperHexDigits.all fun digit => digit.toLower.toUpper = digit) =
        true := by
    decide
  rw [List.map_map]
  conv_rhs => rw [← List.map_id digits]
  apply List.map_congr_left
  intro character member
  have isRestored :=
    List.all_eq_true.mp restored character (areDigits character member)
  exact of_decide_eq_true isRestored

/-- On texts of upper-case digits the comparison of the callback is equality. -/
theorem eqIgnoreAsciiCase_iff
    {left right : String}
    (leftDigits : ∀ character ∈ left.toList, character ∈ upperHexDigits)
    (rightDigits :
      ∀ character ∈ right.toList, character ∈ upperHexDigits) :
    eqIgnoreAsciiCase left right = true ↔ left = right := by
  constructor
  · intro same
    have lowered :
        left.toList.map Char.toLower = right.toList.map Char.toLower := by
      simpa [eqIgnoreAsciiCase] using same
    apply String.toList_injective
    rw [← toUpper_toLower_digits leftDigits,
      ← toUpper_toLower_digits rightDigits, lowered]
  · rintro rfl
    simp [eqIgnoreAsciiCase]

/-- The digits of `hex::encode` upper-cased. -/
def upperHex (bytes : List UInt8) : String :=
  String.ofList ((hexEncode bytes).toList.map Char.toUpper)

theorem hexDigit_ascii :
    ∀ value : Fin 16, (hexDigit value).toNat < 128 ∧
      (hexDigit value).toUpper ∈ upperHexDigits := by
  decide

theorem computeThumbprint_eq
    (table : Uppercase) (certDer : List UInt8) :
    computeThumbprint table certDer = upperHex (sha1 certDer) := by
  have single :
      ∀ character ∈ (hexEncode (sha1 certDer)).toList,
        table.mapping character = [character.toUpper] := by
    intro character member
    obtain ⟨value, rfl⟩ := mem_hexEncode member
    exact table.ascii _ (hexDigit_ascii value).1
  rw [computeThumbprint, upperHex, Uppercase.toUppercase,
    List.map_eq_flatMap]
  exact congrArg String.ofList (List.flatMap_congr single)

theorem upperHex_digits (bytes : List UInt8) :
    ∀ character ∈ (upperHex bytes).toList,
      character ∈ upperHexDigits := by
  intro character member
  rw [upperHex, String.toList_ofList] at member
  obtain ⟨digit, isDigit, rfl⟩ := List.mem_map.mp member
  obtain ⟨value, rfl⟩ := mem_hexEncode isDigit
  exact (hexDigit_ascii value).2

/-! ## The list -/

/-- A thumbprint line without a normal form makes the loop fail. -/
theorem collectThumbprints_malformed
    {table : Uppercase} {filePath : String} {texts : List String}
    {line : String} (member : line ∈ texts)
    (isLine : IsThumbprintLine line)
    (malformed :
      ∀ entry, normalizeThumbprint table (trim line) ≠ .ok entry)
    (lineNumber : Nat) (allowed : List String) :
    ∀ listed,
      collectThumbprints table filePath lineNumber texts allowed ≠
        .ok listed := by
  induction texts generalizing lineNumber allowed with
  | nil =>
      exact absurd member List.not_mem_nil
  | cons first rest inductionHypothesis =>
      intro listed collected
      rw [collectThumbprints] at collected
      by_cases isFirst : line = first
      · subst isFirst
        rw [if_pos isLine] at collected
        cases normalized : normalizeThumbprint table (trim line) with
        | error reason =>
            rw [normalized] at collected
            cases collected
        | ok thumbprint =>
            exact malformed thumbprint normalized
      · have inRest : line ∈ rest :=
          (List.mem_cons.mp member).resolve_left isFirst
        split at collected
        · split at collected
          · cases collected
          · split at collected
            · exact inductionHypothesis inRest _ _ listed collected
            · exact inductionHypothesis inRest _ _ listed collected
        · exact inductionHypothesis inRest _ _ listed collected

/-- The loop adds the normal forms of the thumbprint lines and nothing else. -/
theorem mem_collectThumbprints
    {table : Uppercase} {filePath : String} {texts : List String}
    {lineNumber : Nat} {allowed listed : List String}
    (collected :
      collectThumbprints table filePath lineNumber texts allowed =
        .ok listed)
    (entry : String) :
    entry ∈ listed ↔
      entry ∈ allowed ∨
        ∃ line ∈ texts, IsThumbprintLine line ∧
          normalizeThumbprint table (trim line) = .ok entry := by
  induction texts generalizing lineNumber allowed with
  | nil =>
      cases collected
      simp
  | cons first rest inductionHypothesis =>
      rw [collectThumbprints] at collected
      split at collected
      · rename_i isLine
        split at collected
        · cases collected
        · rename_i thumbprint normalized
          have firstEntry :
              normalizeThumbprint table (trim first) = .ok entry ↔
                entry = thumbprint := by
            rw [normalized]
            exact ⟨fun same => (Except.ok.inj same).symm, congrArg _ ∘ Eq.symm⟩
          split at collected
          · rename_i known
            rw [inductionHypothesis collected]
            constructor
            · rintro (old | ⟨line, member, found⟩)
              · exact Or.inl old
              · exact
                  Or.inr ⟨line, List.mem_cons_of_mem first member, found⟩
            · rintro (old | ⟨line, member, lineIs, found⟩)
              · exact Or.inl old
              · rcases List.mem_cons.mp member with rfl | inRest
                · rw [firstEntry] at found
                  exact Or.inl (found ▸ known)
                · exact Or.inr ⟨line, inRest, lineIs, found⟩
          · rw [inductionHypothesis collected]
            constructor
            · rintro (old | ⟨line, member, found⟩)
              · rcases List.mem_append.mp old with old | new
                · exact Or.inl old
                · refine
                    Or.inr ⟨first, List.mem_cons_self, isLine, ?_⟩
                  exact firstEntry.mpr (List.mem_singleton.mp new)
              · exact
                  Or.inr ⟨line, List.mem_cons_of_mem first member, found⟩
            · rintro (old | ⟨line, member, lineIs, found⟩)
              · exact Or.inl (List.mem_append_left _ old)
              · rcases List.mem_cons.mp member with rfl | inRest
                · rw [firstEntry] at found
                  refine Or.inl (List.mem_append_right _ ?_)
                  exact List.mem_singleton.mpr found
                · exact Or.inr ⟨line, inRest, lineIs, found⟩
      · rename_i notLine
        rw [inductionHypothesis collected]
        constructor
        · rintro (old | ⟨line, member, found⟩)
          · exact Or.inl old
          · exact Or.inr ⟨line, List.mem_cons_of_mem first member, found⟩
        · rintro (old | ⟨line, member, lineIs, found⟩)
          · exact Or.inl old
          · rcases List.mem_cons.mp member with rfl | inRest
            · exact absurd lineIs notLine
            · exact Or.inr ⟨line, inRest, lineIs, found⟩

theorem allowedThumbprints_ne_nil
    {table : Uppercase} {clients : ClientList} {allowed : List String}
    (listed : clients.allowedThumbprints table = .ok allowed) :
    allowed ≠ [] := by
  unfold ClientList.allowedThumbprints at listed
  split at listed
  · cases listed
  · split at listed
    · cases listed
    · cases listed
    · rename_i notEmpty _
      cases listed
      intro isEmpty
      exact notEmpty isEmpty

/-- The two halves of a list that was built. -/
theorem allowedThumbprints_parts
    {table : Uppercase} {clients : ClientList} {allowed : List String}
    (listed : clients.allowedThumbprints table = .ok allowed) :
    ∃ fromFile, clients.fromFile table = .ok fromFile ∧
      clients.withFlag table fromFile = .ok allowed := by
  unfold ClientList.allowedThumbprints at listed
  split at listed
  · cases listed
  · rename_i fromFile isFile
    refine ⟨fromFile, isFile, ?_⟩
    split at listed
    · cases listed
    · cases listed
    · rename_i withFlag
      cases listed
      exact withFlag

theorem mem_fromFile
    {table : Uppercase} {clients : ClientList} {fromFile : List String}
    (listed : clients.fromFile table = .ok fromFile) (entry : String) :
    entry ∈ fromFile ↔
      ∃ filePath content line,
        clients.allowThumbprintsFile = some (filePath, .ok content) ∧
          line ∈ lines content ∧ IsThumbprintLine line ∧
            normalizeThumbprint table (trim line) = .ok entry := by
  unfold ClientList.fromFile at listed
  split at listed
  · rename_i noFile
    cases listed
    simp [noFile]
  · cases listed
  · rename_i filePath content isFile
    rw [mem_collectThumbprints listed, isFile]
    constructor
    · rintro (old | ⟨line, member, isLine, normalized⟩)
      · exact absurd old List.not_mem_nil
      · exact ⟨filePath, content, line, rfl, member, isLine, normalized⟩
    · rintro ⟨_, _, line, same, member, isLine, normalized⟩
      cases same
      exact Or.inr ⟨line, member, isLine, normalized⟩

theorem mem_withFlag
    {table : Uppercase} {clients : ClientList}
    {fromFile allowed : List String}
    (listed : clients.withFlag table fromFile = .ok allowed)
    (entry : String) :
    entry ∈ allowed ↔
      entry ∈ fromFile ∨
        clients.expectedThumbprint ≠ "" ∧
          normalizeThumbprint table clients.expectedThumbprint =
            .ok entry := by
  unfold ClientList.withFlag at listed
  split at listed
  · rename_i noFlag
    cases listed
    simp [noFlag]
  · rename_i hasFlag
    split at listed
    · cases listed
    · rename_i thumbprint normalized
      cases listed
      rw [List.mem_append, List.mem_singleton, normalized]
      simp [hasFlag, eq_comm]

/-- The entries of the list are the normal forms of the texts that name a
thumbprint. -/
theorem mem_allowedThumbprints
    {table : Uppercase} {clients : ClientList} {allowed : List String}
    (listed : clients.allowedThumbprints table = .ok allowed)
    (entry : String) :
    entry ∈ allowed ↔
      ∃ text, clients.Names text ∧
        normalizeThumbprint table text = .ok entry := by
  obtain ⟨fromFile, isFile, withFlag⟩ := allowedThumbprints_parts listed
  rw [mem_withFlag withFlag, mem_fromFile isFile]
  constructor
  · rintro (⟨filePath, content, line, found, member, isLine, normalized⟩ |
      ⟨hasFlag, normalized⟩)
    · exact ⟨trim line, .line found member isLine, normalized⟩
    · exact ⟨clients.expectedThumbprint, .flag hasFlag, normalized⟩
  · rintro ⟨text, named, normalized⟩
    cases named with
    | line found member isLine =>
        exact Or.inl ⟨_, _, _, found, member, isLine, normalized⟩
    | flag hasFlag =>
        exact Or.inr ⟨hasFlag, normalized⟩

/-- Of a list that was built, every text that names a thumbprint has a normal
form. -/
theorem normalized_of_names
    {table : Uppercase} {clients : ClientList} {allowed : List String}
    (listed : clients.allowedThumbprints table = .ok allowed)
    {text : String} (named : clients.Names text) :
    ∃ entry, normalizeThumbprint table text = .ok entry := by
  by_contra malformed
  rw [not_exists] at malformed
  obtain ⟨fromFile, isFile, withFlag⟩ := allowedThumbprints_parts listed
  cases named with
  | line found member isLine =>
      rw [ClientList.fromFile, found] at isFile
      exact
        collectThumbprints_malformed member isLine malformed 0 []
          fromFile isFile
  | flag hasFlag =>
      rw [ClientList.withFlag, if_neg hasFlag] at withFlag
      split at withFlag
      · cases withFlag
      · rename_i entry normalized
        exact malformed entry normalized

end Quiczilla
