import Mathlib.Data.Bool.AllAny
import Mathlib.Data.List.Induction
import Quiczilla.Thumbprints

/-!
# Which strings have a thumbprint as their normal form

`normalize_thumbprint` looks at the digits after the upper-casing.  A string
has a normal form when its digits, with the ligature of two `f` spelled out,
are forty hexadecimal ones.
-/

namespace Quiczilla

open Foundation

/-- The value without ASCII white space and colons. -/
def strippedDigits (value : String) : List Char :=
  value.toList.filter fun character =>
    !isAsciiWhitespace character && character != ':'

/-- Exactly forty hexadecimal digits. -/
structure FortyDigits (digits : List Char) : Prop where
  length : digits.length = 40
  digit : ∀ digit ∈ digits, isAsciiHexdigit digit = true

/-- The bytes that the value spells. -/
structure SpellsBytes (value : String) (bytes : List UInt8) : Prop where
  digits : FortyDigits (strippedDigits value)
  decoded : hexDecode (strippedDigits value) = some bytes

def ligature : Char := '\ufb00'

def spelling (digit : Char) : List Char :=
  if digit = ligature then ['f', 'f'] else [digit]

/-- The digits with every ligature spelled out. -/
def spellOut (digits : List Char) : List Char :=
  digits.flatMap spelling

/-- A ligature makes the value pass for forty digits. -/
structure Ligated (value : String) : Prop where
  ligature : ligature ∈ value.toList
  passes : FortyDigits (spellOut (strippedDigits value))

/-- The values with a normal form are those that spell forty digits, which are
the normal form in upper case and keep it. -/
structure NormalisesDigits (table : Uppercase) (value : String) : Prop where
  accepted :
    ∀ thumbprint,
      normalizeThumbprint table value = .ok thumbprint ↔
        FortyDigits (strippedDigits value) ∧
          thumbprint =
            String.ofList ((strippedDigits value).map Char.toUpper)
  idempotent :
    ∀ thumbprint, normalizeThumbprint table value = .ok thumbprint →
      normalizeThumbprint table thumbprint = .ok thumbprint

/-- The values have one normal form when they spell the same twenty bytes. -/
def SameForm (table : Uppercase) (value other : String) : Prop :=
  (∃ thumbprint,
      normalizeThumbprint table value = .ok thumbprint ∧
        normalizeThumbprint table other = .ok thumbprint) ↔
    ∃ bytes,
      bytes.length = 20 ∧ SpellsBytes value bytes ∧
        SpellsBytes other bytes

/-! ## Hexadecimal digits -/

/-- What the normal form relies on about a hexadecimal digit. -/
structure PlainDigit (digit : Char) : Prop where
  upperDigit : isAsciiHexdigit digit.toUpper = true
  upperTwice : digit.toUpper.toUpper = digit.toUpper
  upperValue : hexDigitValue digit.toUpper = hexDigitValue digit
  single : digit.utf8Size = 1
  kept : (!isAsciiWhitespace digit && digit != ':') = true
  ascii : digit.toNat < 128
  value :
    ∃ value < 16, hexDigitValue digit = some value ∧
      digit.toUpper = (hexDigit value).toUpper

instance (digit : Char) : Decidable (PlainDigit digit) :=
  decidable_of_iff
    (isAsciiHexdigit digit.toUpper = true ∧
      digit.toUpper.toUpper = digit.toUpper ∧
        hexDigitValue digit.toUpper = hexDigitValue digit ∧
          digit.utf8Size = 1 ∧
            (!isAsciiWhitespace digit && digit != ':') = true ∧
              digit.toNat < 128 ∧
                ∃ value < 16, hexDigitValue digit = some value ∧
                  digit.toUpper = (hexDigit value).toUpper)
    ⟨fun ⟨upperDigit, upperTwice, upperValue, single, kept, ascii, value⟩ =>
        ⟨upperDigit, upperTwice, upperValue, single, kept, ascii, value⟩,
      fun plain =>
        ⟨plain.upperDigit, plain.upperTwice, plain.upperValue, plain.single,
          plain.kept, plain.ascii, plain.value⟩⟩

theorem plainDigit_of_hexdigit
    {digit : Char} (isDigit : isAsciiHexdigit digit = true) :
    PlainDigit digit := by
  have plain : (hexDigits.all fun digit => PlainDigit digit) = true := by
    decide +kernel
  have member : digit ∈ hexDigits := by
    simpa [isAsciiHexdigit] using isDigit
  exact of_decide_eq_true (List.all_eq_true.mp plain digit member)

theorem isAsciiHexdigit_of_toUpper :
    ∀ code : Fin 128,
      isAsciiHexdigit (Char.ofNat code).toUpper = true →
        isAsciiHexdigit (Char.ofNat code) = true := by
  decide

theorem ligature_foreign :
    isAsciiHexdigit ligature = false ∧
      (!isAsciiWhitespace ligature && ligature != ':') = true := by
  decide

/-! ## The upper-cased digits -/

variable {table : Uppercase}

/-- A character whose upper case consists of digits is a digit or the
ligature. -/
theorem spelling_of_mapping
    {digit : Char}
    (areDigits :
      ∀ upper ∈ table.mapping digit, isAsciiHexdigit upper = true) :
    ∀ spelled ∈ spelling digit, isAsciiHexdigit spelled = true := by
  by_cases isLigature : digit = ligature
  · rw [spelling, if_pos isLigature]
    exact List.all_iff_forall_prop.mp (by decide)
  · rw [spelling, if_neg isLigature]
    intro spelled member
    rw [List.mem_singleton.mp member]
    by_cases ascii : digit.toNat < 128
    · have upper := areDigits digit.toUpper
      rw [table.ascii digit ascii] at upper
      have isDigit := upper (List.mem_singleton_self _)
      have found :=
        isAsciiHexdigit_of_toUpper ⟨digit.toNat, ascii⟩
      rw [Char.ofNat_toNat] at found
      exact found isDigit
    · obtain ⟨upper, isUpper, foreign⟩ :=
        table.foreign digit (Nat.not_lt.mp ascii) isLigature
      rw [areDigits upper isUpper] at foreign
      cases foreign

/-- The digits that a digit or the ligature is upper-cased to. -/
theorem mapping_of_spelling
    {digit : Char}
    (areDigits :
      ∀ spelled ∈ spelling digit, isAsciiHexdigit spelled = true) :
    table.mapping digit = (spelling digit).map Char.toUpper := by
  by_cases isLigature : digit = ligature
  · rw [spelling, if_pos isLigature, isLigature]
    exact table.ligature
  · rw [spelling, if_neg isLigature] at areDigits ⊢
    have isDigit := areDigits digit (List.mem_singleton_self _)
    exact table.ascii digit (plainDigit_of_hexdigit isDigit).ascii

theorem upperDigits_iff (digits : List Char) :
    (∀ upper ∈ digits.flatMap table.mapping,
        isAsciiHexdigit upper = true) ↔
      ∀ spelled ∈ spellOut digits, isAsciiHexdigit spelled = true := by
  rw [spellOut]
  constructor
  · intro areDigits spelled member
    obtain ⟨digit, isDigit, isSpelled⟩ := List.mem_flatMap.mp member
    have isUpper :
        ∀ upper ∈ table.mapping digit, isAsciiHexdigit upper = true := by
      intro upper isUpper
      exact areDigits upper (List.mem_flatMap.mpr ⟨digit, isDigit, isUpper⟩)
    exact spelling_of_mapping isUpper spelled isSpelled
  · intro areDigits upper member
    obtain ⟨digit, isDigit, isUpper⟩ := List.mem_flatMap.mp member
    have spelled :
        ∀ spelled ∈ spelling digit, isAsciiHexdigit spelled = true :=
      fun spelled isSpelled =>
        areDigits spelled (List.mem_flatMap.mpr ⟨digit, isDigit, isSpelled⟩)
    rw [mapping_of_spelling spelled] at isUpper
    obtain ⟨spelledDigit, isSpelled, rfl⟩ := List.mem_map.mp isUpper
    exact (plainDigit_of_hexdigit (spelled _ isSpelled)).upperDigit

theorem flatMap_mapping
    {digits : List Char}
    (areDigits :
      ∀ spelled ∈ spellOut digits, isAsciiHexdigit spelled = true) :
    digits.flatMap table.mapping =
      (spellOut digits).map Char.toUpper := by
  rw [spellOut, List.map_flatMap]
  apply List.flatMap_congr
  intro digit isDigit
  apply mapping_of_spelling
  intro spelled isSpelled
  exact areDigits spelled (List.mem_flatMap.mpr ⟨digit, isDigit, isSpelled⟩)

theorem utf8ByteSize_of_digits
    {digits : List Char}
    (areDigits : ∀ digit ∈ digits, isAsciiHexdigit digit = true) :
    (String.ofList digits).utf8ByteSize = digits.length := by
  have single : digits.map Char.utf8Size = digits.map fun _ => 1 :=
    List.map_congr_left fun digit member =>
      (plainDigit_of_hexdigit (areDigits digit member)).single
  rw [utf8ByteSize_ofList, single]
  simp

/-- The normal form of a value is its digits, ligatures spelled out. -/
theorem normalizeThumbprint_eq_ok (value thumbprint : String) :
    normalizeThumbprint table value = .ok thumbprint ↔
      FortyDigits (spellOut (strippedDigits value)) ∧
        thumbprint =
          String.ofList
            ((spellOut (strippedDigits value)).map Char.toUpper) := by
  have isText :
      normalizedText table value =
        String.ofList ((strippedDigits value).flatMap table.mapping) := by
    rw [normalizedText, Uppercase.toUppercase, String.toList_ofList]
    rfl
  have allDigits :
      (normalizedText table value).toList.all isAsciiHexdigit = true ↔
        ∀ spelled ∈ spellOut (strippedDigits value),
          isAsciiHexdigit spelled = true := by
    rw [isText, String.toList_ofList, List.all_eq_true]
    exact upperDigits_iff _
  rw [normalizeThumbprint]
  by_cases areDigits :
      ∀ spelled ∈ spellOut (strippedDigits value),
        isAsciiHexdigit spelled = true
  · have upperDigits :
        ∀ upper ∈ (spellOut (strippedDigits value)).map Char.toUpper,
          isAsciiHexdigit upper = true := by
      intro upper member
      obtain ⟨digit, isDigit, rfl⟩ := List.mem_map.mp member
      exact (plainDigit_of_hexdigit (areDigits digit isDigit)).upperDigit
    have isSpelled :
        normalizedText table value =
          String.ofList
            ((spellOut (strippedDigits value)).map Char.toUpper) := by
      rw [isText, flatMap_mapping areDigits]
    have size :
        (normalizedText table value).utf8ByteSize =
          (spellOut (strippedDigits value)).length := by
      rw [isSpelled, utf8ByteSize_of_digits upperDigits, List.length_map]
    rw [allDigits.mpr areDigits, size, ← isSpelled]
    by_cases forty : (spellOut (strippedDigits value)).length = 40
    · rw [if_neg (by simp [forty])]
      constructor
      · intro same
        exact ⟨⟨forty, areDigits⟩, (Except.ok.inj same).symm⟩
      · rintro ⟨_, rfl⟩
        rfl
    · rw [if_pos (Or.inl forty)]
      constructor
      · intro refused
        cases refused
      · rintro ⟨digits, _⟩
        exact absurd digits.length forty
  · have notDigits :
        (normalizedText table value).toList.all isAsciiHexdigit = false := by
      rw [← Bool.not_eq_true]
      exact fun all => areDigits (allDigits.mp all)
    rw [if_pos (Or.inr notDigits)]
    constructor
    · intro refused
      cases refused
    · rintro ⟨digits, _⟩
      exact absurd digits.digit areDigits

/-! ## Values without a ligature -/

theorem spellOut_eq_self
    {digits : List Char} (absent : ligature ∉ digits) :
    spellOut digits = digits := by
  have single : ∀ digit ∈ digits, spelling digit = [digit] := by
    intro digit member
    rw [spelling, if_neg]
    rintro rfl
    exact absent member
  rw [spellOut, List.flatMap_congr single, List.flatMap_singleton']

theorem mem_strippedDigits (value : String) :
    ligature ∈ strippedDigits value ↔ ligature ∈ value.toList := by
  rw [strippedDigits, List.mem_filter]
  exact ⟨fun kept => kept.1, fun member => ⟨member, ligature_foreign.2⟩⟩

theorem FortyDigits.noLigature
    {digits : List Char} (forty : FortyDigits digits) :
    ligature ∉ digits := by
  intro member
  have isDigit := forty.digit ligature member
  rw [ligature_foreign.1] at isDigit
  cases isDigit

/-- A value that is not taken for digits by a ligature has the digits that it
shows. -/
theorem fortyDigits_spellOut
    {value : String} (plain : ¬ Ligated value) :
    FortyDigits (spellOut (strippedDigits value)) ↔
      FortyDigits (strippedDigits value) := by
  by_cases absent : ligature ∈ value.toList
  · constructor
    · intro passes
      exact absurd ⟨absent, passes⟩ plain
    · intro forty
      exact
        absurd ((mem_strippedDigits value).mpr absent) forty.noLigature
  · rw [← mem_strippedDigits] at absent
    rw [spellOut_eq_self absent]

/-- The digits of the normal form are their own normal form. -/
theorem normalizeThumbprint_idempotent
    {value thumbprint : String}
    (normalized : normalizeThumbprint table value = .ok thumbprint) :
    normalizeThumbprint table thumbprint = .ok thumbprint := by
  obtain ⟨forty, rfl⟩ := (normalizeThumbprint_eq_ok _ _).mp normalized
  generalize spellOut (strippedDigits value) = digits at forty
  have plain : ∀ digit ∈ digits, PlainDigit digit :=
    fun digit member => plainDigit_of_hexdigit (forty.digit digit member)
  have upperForty : FortyDigits (digits.map Char.toUpper) := by
    refine ⟨(List.length_map _).trans forty.length, ?_⟩
    intro upper member
    obtain ⟨digit, isDigit, rfl⟩ := List.mem_map.mp member
    exact (plain digit isDigit).upperDigit
  have stripped :
      strippedDigits (String.ofList (digits.map Char.toUpper)) =
        digits.map Char.toUpper := by
    rw [strippedDigits, String.toList_ofList, List.filter_eq_self]
    intro upper member
    exact (plainDigit_of_hexdigit (upperForty.digit upper member)).kept
  have twice :
      (digits.map Char.toUpper).map Char.toUpper =
        digits.map Char.toUpper := by
    rw [List.map_map]
    exact
      List.map_congr_left fun digit member =>
        (plain digit member).upperTwice
  rw [normalizeThumbprint_eq_ok, stripped,
    spellOut_eq_self upperForty.noLigature]
  exact ⟨upperForty, by rw [twice]⟩

/-! ## The bytes that are spelled -/

/-- Upper-casing digits does not change what they spell. -/
theorem hexDecode_upper
    {digits : List Char}
    (areDigits : ∀ digit ∈ digits, isAsciiHexdigit digit = true) :
    hexDecode (digits.map Char.toUpper) = hexDecode digits := by
  induction digits using List.twoStepInduction with
  | nil => rfl
  | singleton digit => rfl
  | cons_cons high low rest inductionHypothesis _ =>
      rw [List.forall_mem_cons, List.forall_mem_cons] at areDigits
      obtain ⟨isHigh, isLow, areRest⟩ := areDigits
      rw [List.map_cons, List.map_cons, hexDecode, hexDecode,
        (plainDigit_of_hexdigit isHigh).upperValue,
        (plainDigit_of_hexdigit isLow).upperValue,
        inductionHypothesis areRest]

theorem hexEncode_cons (byte : UInt8) (bytes : List UInt8) :
    (hexEncode (byte :: bytes)).toList =
      hexDigit (byte.toNat / 16) :: hexDigit (byte.toNat % 16) ::
        (hexEncode bytes).toList := by
  simp [hexEncode]

/-- An even number of digits spells bytes, and these spell the digits in upper
case. -/
theorem hexDecode_of_even
    {digits : List Char}
    (areDigits : ∀ digit ∈ digits, isAsciiHexdigit digit = true)
    (even : digits.length % 2 = 0) :
    ∃ bytes, hexDecode digits = some bytes ∧
      digits.length = 2 * bytes.length ∧
        String.ofList (digits.map Char.toUpper) = upperHex bytes := by
  induction digits using List.twoStepInduction with
  | nil => exact ⟨[], rfl, rfl, rfl⟩
  | singleton digit => cases even
  | cons_cons high low rest inductionHypothesis _ =>
      rw [List.forall_mem_cons, List.forall_mem_cons] at areDigits
      obtain ⟨isHigh, isLow, areRest⟩ := areDigits
      have evenRest : rest.length % 2 = 0 := by
        simp only [List.length_cons] at even
        omega
      obtain ⟨bytes, decoded, isLength, isUpper⟩ :=
        inductionHypothesis areRest evenRest
      obtain ⟨highValue, highSmall, isHighValue, highUpper⟩ :=
        (plainDigit_of_hexdigit isHigh).value
      obtain ⟨lowValue, lowSmall, isLowValue, lowUpper⟩ :=
        (plainDigit_of_hexdigit isLow).value
      refine
        ⟨UInt8.ofNat (highValue * 16 + lowValue) :: bytes, ?_, ?_, ?_⟩
      · simp only [hexDecode, isHighValue, isLowValue, decoded]
      · simp only [List.length_cons]
        omega
      · have isByte :
            (UInt8.ofNat (highValue * 16 + lowValue)).toNat =
              highValue * 16 + lowValue := by
          rw [UInt8.toNat_ofNat']
          omega
        have sameRest :
            rest.map Char.toUpper =
              (hexEncode bytes).toList.map Char.toUpper := by
          have same := congrArg String.toList isUpper
          rwa [upperHex, String.toList_ofList, String.toList_ofList]
            at same
        rw [upperHex, hexEncode_cons, isByte,
          show (highValue * 16 + lowValue) / 16 = highValue by omega,
          show (highValue * 16 + lowValue) % 16 = lowValue by omega]
        simp only [List.map_cons, highUpper, lowUpper, sameRest]

theorem FortyDigits.bytes
    {digits : List Char} (forty : FortyDigits digits) :
    ∃ bytes, hexDecode digits = some bytes ∧ bytes.length = 20 ∧
      String.ofList (digits.map Char.toUpper) = upperHex bytes := by
  obtain ⟨bytes, decoded, isLength, isUpper⟩ :=
    hexDecode_of_even forty.digit (by rw [forty.length])
  rw [forty.length] at isLength
  exact ⟨bytes, decoded, by omega, isUpper⟩

/-- Digits spell the same bytes when they are the same in upper case. -/
theorem hexDecode_eq_of_upper
    {first second : List Char}
    (firstDigits : ∀ digit ∈ first, isAsciiHexdigit digit = true)
    (secondDigits : ∀ digit ∈ second, isAsciiHexdigit digit = true)
    (same : first.map Char.toUpper = second.map Char.toUpper) :
    hexDecode first = hexDecode second := by
  rw [← hexDecode_upper firstDigits, same, hexDecode_upper secondDigits]

/-! ## The normal form -/

theorem normalisesDigits_of_plain
    {value : String} (plain : ¬ Ligated value) :
    NormalisesDigits table value where
  accepted := by
    intro thumbprint
    rw [normalizeThumbprint_eq_ok, fortyDigits_spellOut plain]
    constructor
    · rintro ⟨forty, rfl⟩
      exact ⟨forty, by rw [spellOut_eq_self forty.noLigature]⟩
    · rintro ⟨forty, rfl⟩
      exact ⟨forty, by rw [spellOut_eq_self forty.noLigature]⟩
  idempotent := fun _ normalized =>
    normalizeThumbprint_idempotent normalized

/-- A ligature gets a normal form that the digits do not spell. -/
theorem plain_of_normalisesDigits
    {value : String} (normalises : NormalisesDigits table value) :
    ¬ Ligated value := by
  intro ligated
  have normalized :
      normalizeThumbprint table value =
        .ok
          (String.ofList
            ((spellOut (strippedDigits value)).map Char.toUpper)) :=
    (normalizeThumbprint_eq_ok value _).mpr ⟨ligated.passes, rfl⟩
  have forty := ((normalises.accepted _).mp normalized).1
  exact
    forty.noLigature ((mem_strippedDigits value).mpr ligated.ligature)

theorem sameForm_of_plain
    {value other : String} (plain : ¬ Ligated value)
    (otherPlain : ¬ Ligated other) :
    SameForm table value other := by
  have normalises : NormalisesDigits table value :=
    normalisesDigits_of_plain plain
  have otherNormalises : NormalisesDigits table other :=
    normalisesDigits_of_plain otherPlain
  have accepted := normalises.accepted
  have otherAccepted := otherNormalises.accepted
  constructor
  · rintro ⟨thumbprint, normalized, otherNormalized⟩
    obtain ⟨forty, rfl⟩ := (accepted _).mp normalized
    obtain ⟨otherForty, same⟩ := (otherAccepted _).mp otherNormalized
    obtain ⟨bytes, decoded, twenty, _⟩ := forty.bytes
    have sameDigits := congrArg String.toList same
    rw [String.toList_ofList, String.toList_ofList] at sameDigits
    have otherDecoded :=
      hexDecode_eq_of_upper forty.digit otherForty.digit sameDigits
    exact
      ⟨bytes, twenty, ⟨forty, decoded⟩,
        ⟨otherForty, otherDecoded.symm.trans decoded⟩⟩
  · rintro ⟨bytes, _, spells, otherSpells⟩
    obtain ⟨found, decoded, _, isUpper⟩ := spells.digits.bytes
    obtain ⟨otherFound, otherDecoded, _, otherUpper⟩ :=
      otherSpells.digits.bytes
    have isFound : found = bytes :=
      Option.some.inj (decoded.symm.trans spells.decoded)
    have isOther : otherFound = bytes :=
      Option.some.inj (otherDecoded.symm.trans otherSpells.decoded)
    rw [isFound] at isUpper
    rw [isOther] at otherUpper
    refine ⟨upperHex bytes, ?_, ?_⟩
    · exact (accepted _).mpr ⟨spells.digits, isUpper.symm⟩
    · exact (otherAccepted _).mpr ⟨otherSpells.digits, otherUpper.symm⟩

/-- Normalisation is exact for two strings exactly when neither passes for
forty digits because of a ligature. -/
theorem thumbprints_normalised_exactly
    (table : Uppercase) (value other : String) :
    NormalisesDigits table value ∧ NormalisesDigits table other ∧
        SameForm table value other ↔
      ¬ Ligated value ∧ ¬ Ligated other := by
  constructor
  · rintro ⟨normalises, otherNormalises, _⟩
    exact
      ⟨plain_of_normalisesDigits normalises,
        plain_of_normalisesDigits otherNormalises⟩
  · rintro ⟨plain, otherPlain⟩
    exact
      ⟨normalisesDigits_of_plain plain,
        normalisesDigits_of_plain otherPlain,
        sameForm_of_plain plain otherPlain⟩

/-- A ligature and thirty-eight digits. -/
def ligatedThumbprint : String :=
  String.ofList (ligature :: List.replicate 38 '0')

/-- The ligature is no hexadecimal digit, and the value has a normal form. -/
theorem ligature_passes_for_digits :
    ¬ ∀ (table : Uppercase) (value : String),
        NormalisesDigits table value := by
  intro normalises
  have passes :
      FortyDigits (spellOut (strippedDigits ligatedThumbprint)) := by
    constructor
    · decide +kernel
    · exact List.all_iff_forall_prop.mp (by decide +kernel)
  refine
    plain_of_normalisesDigits (normalises .least ligatedThumbprint)
      ⟨?_, passes⟩
  rw [ligatedThumbprint, String.toList_ofList]
  exact List.mem_cons_self

end Quiczilla
