import Mathlib.Data.List.Basic
import Mathlib.Tactic.FinCases
import Mathlib.Tactic.Ring
import Mathlib.Tactic.SplitIfs

/-!
# Text as the standard library of Rust sees it

Character classes, `str::trim`, `str::lines` and the upper-casing of strings.
The Unicode upper-case table is a parameter that carries the facts about it
that hold in every version of the standard.
-/

namespace Quiczilla.Foundation

/-- `char::is_whitespace`: the property `White_Space`. -/
def isWhitespace (character : Char) : Bool :=
  (9 ≤ character.toNat && character.toNat ≤ 13) ||
    character.toNat == 0x20 || character.toNat == 0x85 ||
    character.toNat == 0xa0 || character.toNat == 0x1680 ||
    (0x2000 ≤ character.toNat && character.toNat ≤ 0x200a) ||
    character.toNat == 0x2028 || character.toNat == 0x2029 ||
    character.toNat == 0x202f || character.toNat == 0x205f ||
    character.toNat == 0x3000

/-- `char::is_ascii_whitespace`. -/
def isAsciiWhitespace (character : Char) : Bool :=
  character ∈ [' ', '\t', '\n', '\x0c', '\r']

/-- `char::is_control`: the general category `Cc`. -/
def isControl (character : Char) : Bool :=
  character.toNat < 0x20 ||
    (0x7f ≤ character.toNat && character.toNat ≤ 0x9f)

def hexDigits : List Char :=
  ['0', '1', '2', '3', '4', '5', '6', '7', '8', '9',
    'A', 'B', 'C', 'D', 'E', 'F', 'a', 'b', 'c', 'd', 'e', 'f']

/-- `char::is_ascii_hexdigit`. -/
def isAsciiHexdigit (character : Char) : Bool :=
  character ∈ hexDigits

/-- `str::trim_matches` with a character class. -/
def trimMatches (drops : Char → Bool) (text : String) : String :=
  String.ofList (((text.toList.dropWhile drops).reverse.dropWhile
    drops).reverse)

/-- `str::trim`. -/
def trim (text : String) : String :=
  trimMatches isWhitespace text

/-- A line without the carriage return of its ending. -/
def stripCarriageReturn (line : List Char) : List Char :=
  if line.getLast? = some '\r' then line.dropLast else line

/-- The lines of the text, of which the first was read up to `current`. -/
def linesFrom (current : List Char) : List Char → List String
  | [] => if current = [] then [] else [String.ofList current]
  | character :: rest =>
      if character = '\n' then
        String.ofList (stripCarriageReturn current) :: linesFrom [] rest
      else linesFrom (current ++ [character]) rest

/-- `str::lines`. -/
def lines (text : String) : List String :=
  linesFrom [] text.toList

def digitValue (digit : Char) : Nat :=
  digit.toNat - 48

/-- `from_str` of the unsigned type with values below the bound. -/
def parseUnsigned (bound : Nat) (text : String) : Option Nat :=
  let digits := if text.toList.head? = some '+' then text.toList.tail
    else text.toList
  let value := digits.foldl (fun value digit => value * 10 + digitValue digit) 0
  if digits ≠ [] ∧ digits.all Char.isDigit = true ∧ value < bound then
    some value
  else none

/-- `u16::from_str`. -/
def parseU16 (text : String) : Option Nat :=
  parseUnsigned 65536 text

/-- `u64::from_str`. -/
def parseU64 (text : String) : Option Nat :=
  parseUnsigned (2 ^ 64) text

/-- `str::strip_prefix`. -/
def stripPrefix (beginning text : String) : Option String :=
  if beginning.toList.isPrefixOf text.toList then
    some (String.ofList (text.toList.drop beginning.toList.length))
  else none

def hexDigitValue (digit : Char) : Option Nat :=
  if digit.isDigit then some (digit.toNat - 48)
  else if 97 ≤ digit.toNat ∧ digit.toNat ≤ 102 then
    some (digit.toNat - 87)
  else if 65 ≤ digit.toNat ∧ digit.toNat ≤ 70 then
    some (digit.toNat - 55)
  else none

/-- `hex::decode`. -/
def hexDecode : List Char → Option (List UInt8)
  | [] => some []
  | [_] => none
  | high :: low :: rest =>
      match hexDigitValue high, hexDigitValue low, hexDecode rest with
      | some high, some low, some bytes =>
          some (UInt8.ofNat (high * 16 + low) :: bytes)
      | _, _, _ => none

/-- An upper-case table.  Of the characters outside ASCII only the ligature
of two `f` has an upper case that is spelled with hexadecimal digits. -/
structure Uppercase where
  mapping : Char → List Char
  ascii :
    ∀ character, character.toNat < 128 →
      mapping character = [character.toUpper]
  notLower :
    ∀ character, ∀ upper ∈ mapping character, upper.isLower = false
  ligature : mapping '\ufb00' = ['F', 'F']
  foreign :
    ∀ character, 128 ≤ character.toNat → character ≠ '\ufb00' →
      ∃ upper ∈ mapping character, isAsciiHexdigit upper = false

/-- `str::to_uppercase`. -/
def Uppercase.toUppercase (table : Uppercase) (text : String) : String :=
  String.ofList (text.toList.flatMap table.mapping)

theorem ascii_toUpper_not_lower :
    ∀ code : Fin 128, (Char.ofNat code).toUpper.isLower = false := by
  decide

theorem not_lower_of_not_ascii
    {character : Char} (notAscii : 128 ≤ character.toNat) :
    character.isLower = false := by
  by_contra lower
  have bound : character.toNat ≤ 122 := by
    have isLower : character.isLower = true :=
      Bool.eq_true_of_not_eq_false lower
    have both :
        (decide (97 ≤ character.val) && decide (character.val ≤ 122)) =
          true :=
      isLower
    rw [Bool.and_eq_true, decide_eq_true_eq, decide_eq_true_eq] at both
    exact both.2
  omega

/-- A table that upper-cases ASCII and the ligature and nothing else. -/
def Uppercase.least : Uppercase where
  mapping := fun character =>
    if character.toNat < 128 then [character.toUpper]
    else if character = '\ufb00' then ['F', 'F']
    else [character]
  ascii := fun _ isAscii => if_pos isAscii
  notLower := by
    intro character upper member
    split_ifs at member with isAscii isLigature
    · rw [List.mem_singleton.mp member, ← Char.ofNat_toNat character]
      exact ascii_toUpper_not_lower ⟨character.toNat, isAscii⟩
    · fin_cases member <;> rfl
    · rw [List.mem_singleton.mp member]
      exact not_lower_of_not_ascii (Nat.not_lt.mp isAscii)
  ligature := rfl
  foreign := by
    intro character notAscii notLigature
    rw [if_neg (Nat.not_lt.mpr notAscii), if_neg notLigature]
    refine ⟨character, List.mem_singleton_self _, ?_⟩
    by_contra isDigit
    have member : character ∈ hexDigits := by
      simpa [isAsciiHexdigit] using isDigit
    have small : (hexDigits.all fun digit => digit.toNat < 128) = true := by
      decide
    have isSmall := List.all_eq_true.mp small character member
    exact Nat.not_lt.mpr notAscii (of_decide_eq_true isSmall)

/-- A lower-case table.  The capital sigma has two lower cases, and what stands
around it decides between them. -/
structure Lowercase where
  mapping : Char → List Char
  finalSigma : List Char → List Char → Bool
  ascii :
    ∀ character, character.toNat < 128 →
      mapping character = [character.toLower]

/-- Lower-case the characters behind the given ones. -/
def Lowercase.lowerFrom (table : Lowercase) (before : List Char) :
    List Char → List Char
  | [] => []
  | character :: rest =>
      (if character = 'Σ' then
          [if table.finalSigma before rest then 'ς' else 'σ']
        else table.mapping character) ++
        table.lowerFrom (before ++ [character]) rest

/-- `str::to_lowercase`. -/
def Lowercase.toLowercase (table : Lowercase) (text : String) : String :=
  String.ofList (table.lowerFrom [] text.toList)

/-- A table that lower-cases ASCII and nothing else. -/
def Lowercase.least : Lowercase where
  mapping := fun character =>
    if character.toNat < 128 then [character.toLower] else [character]
  finalSigma := fun _ _ => false
  ascii := fun _ isAscii => if_pos isAscii

/-- Characters of ASCII are lower-cased one by one. -/
theorem lowerFrom_ascii
    (table : Lowercase) {characters : List Char}
    (areAscii : ∀ character ∈ characters, character.toNat < 128)
    (before rest : List Char) :
    table.lowerFrom before (characters ++ rest) =
      characters.map Char.toLower ++
        table.lowerFrom (before ++ characters) rest := by
  induction characters generalizing before with
  | nil => simp
  | cons first others inductionHypothesis =>
      rw [List.forall_mem_cons] at areAscii
      have notSigma : first ≠ 'Σ' := by
        rintro rfl
        exact absurd areAscii.1 (by decide)
      rw [List.cons_append, Lowercase.lowerFrom, if_neg notSigma,
        table.ascii first areAscii.1, inductionHypothesis areAscii.2,
        List.append_assoc]
      rfl

/-- `str::contains`, on characters. -/
def containsWord (word : List Char) : List Char → Bool
  | [] => word.isEmpty
  | character :: rest =>
      word.isPrefixOf (character :: rest) || containsWord word rest

/-- No beginning of the word is an end of the text, and the word does not occur
in it. -/
def apart (word : List Char) : List Char → Bool
  | [] => true
  | character :: rest =>
      word.take (rest.length + 1) !=
          (character :: rest).take word.length &&
        apart word rest

/-- Where word and text are apart, the word occurs only behind the text. -/
theorem containsWord_append
    {word text : List Char} (isApart : apart word text = true)
    (rest : List Char) :
    containsWord word (text ++ rest) = containsWord word rest := by
  induction text with
  | nil => rfl
  | cons first others inductionHypothesis =>
      rw [apart, Bool.and_eq_true, bne_iff_ne] at isApart
      obtain ⟨differs, othersApart⟩ := isApart
      have notFront :
          word.isPrefixOf (first :: (others ++ rest)) = false := by
        rw [← Bool.not_eq_true, List.isPrefixOf_iff_prefix]
        rintro ⟨after, same⟩
        apply differs
        have cut :=
          congrArg
            (fun characters =>
              (characters.take word.length).take (others.length + 1))
            same
        rw [List.take_left, List.take_take, ← List.cons_append] at cut
        rw [cut, Nat.min_comm, ← List.take_take,
          List.take_left' (List.length_cons)]
      rw [List.cons_append, containsWord, notFront, Bool.false_or]
      exact inductionHypothesis othersApart

/-- A word that occurs in the text occurs in front of more. -/
theorem containsWord_mono
    {word text : List Char} (contained : containsWord word text = true)
    (rest : List Char) :
    containsWord word (text ++ rest) = true := by
  induction text with
  | nil =>
      rw [containsWord, List.isEmpty_iff] at contained
      rw [contained]
      cases rest <;> rfl
  | cons first others inductionHypothesis =>
      rw [containsWord, Bool.or_eq_true] at contained
      rw [List.cons_append, containsWord, Bool.or_eq_true]
      rcases contained with isFront | later
      · rw [List.isPrefixOf_iff_prefix] at isFront ⊢
        rw [← List.cons_append]
        exact Or.inl (isFront.trans (List.prefix_append _ _))
      · exact Or.inr (inductionHypothesis later)

theorem utf8ByteSize_ofList (characters : List Char) :
    (String.ofList characters).utf8ByteSize =
      (characters.map Char.utf8Size).sum := by
  induction characters with
  | nil => rfl
  | cons first rest inductionHypothesis =>
      rw [String.ofList_cons, String.utf8ByteSize_append,
        String.utf8ByteSize_singleton, inductionHypothesis, List.map_cons,
        List.sum_cons]

theorem utf8ByteSize_eq_sum (text : String) :
    text.utf8ByteSize = (text.toList.map Char.utf8Size).sum := by
  rw [← utf8ByteSize_ofList, String.ofList_toList]

/-- A character takes at most four bytes. -/
theorem utf8ByteSize_ofList_le (characters : List Char) :
    (String.ofList characters).utf8ByteSize ≤ 4 * characters.length := by
  induction characters with
  | nil => exact le_refl 0
  | cons first rest inductionHypothesis =>
      have short := first.utf8Size_le_four
      rw [String.ofList_cons, String.utf8ByteSize_append,
        String.utf8ByteSize_singleton, List.length_cons]
      omega

theorem parseUnsigned_toString
    {bound value : Nat} (inRange : value < bound) :
    parseUnsigned bound (toString value) = some value := by
  have isText : (toString value).toList = Nat.toDigits 10 value := by
    rw [Nat.toString_eq_ofList_toDigits, String.toList_ofList]
  have allDigits : (Nat.toDigits 10 value).all Char.isDigit = true := by
    rw [List.all_eq_true]
    intro digit member
    exact Nat.isDigit_of_mem_toDigits (by decide) (by decide) member
  have noSign : (Nat.toDigits 10 value).head? ≠ some '+' := by
    intro isSign
    have member := List.mem_of_mem_head? isSign
    have isDigit := List.all_eq_true.mp allDigits _ member
    cases isDigit
  have isValue :
      (Nat.toDigits 10 value).foldl
          (fun value digit => value * 10 + digitValue digit) 0 = value := by
    simp only [Nat.mul_comm _ 10]
    exact Nat.ofDigitChars_ten_toDigits
  unfold parseUnsigned
  rw [isText, if_neg noSign]
  dsimp only
  rw [isValue, if_pos ⟨Nat.toDigits_ne_nil, allDigits, inRange⟩]

/-- The decimal digits of a number take at most four bytes each. -/
theorem utf8ByteSize_toString_le
    {value digits : Nat} (positive : 0 < digits) (small : value < 10 ^ digits) :
    (toString value).utf8ByteSize ≤ 4 * digits := by
  rw [Nat.toString_eq_ofList_toDigits]
  have short : (Nat.toDigits 10 value).length ≤ digits :=
    (Nat.length_toDigits_le_iff (by decide) positive).mpr small
  calc
    (String.ofList (Nat.toDigits 10 value)).utf8ByteSize ≤
        4 * (Nat.toDigits 10 value).length :=
      utf8ByteSize_ofList_le _
    _ ≤ 4 * digits := Nat.mul_le_mul_left 4 short

theorem stripPrefix_append (beginning rest : String) :
    stripPrefix beginning (beginning ++ rest) = some rest := by
  have isPrefix :
      beginning.toList.isPrefixOf (beginning ++ rest).toList = true := by
    rw [List.isPrefixOf_iff_prefix, String.toList_append]
    exact List.prefix_append _ _
  rw [stripPrefix, if_pos isPrefix, String.toList_append, List.drop_left,
    String.ofList_toList]

end Quiczilla.Foundation
