import Quiczilla.Foundation.Sha256
import Quiczilla.Foundation.Text

/-!
# Strings in JSON

A string between its quotes, with the escapes that a compact serialiser
chooses, and the reader that takes such a string off the front of a text.
-/

namespace Quiczilla.Foundation

/-- The characters with an escape of two characters, and its second one. -/
def shortEscapes : List (Char × Char) :=
  [('"', '"'), ('\\', '\\'), ('\x08', 'b'), ('\t', 't'), ('\n', 'n'),
    ('\x0c', 'f'), ('\r', 'r')]

def escapeCharacter (character : Char) : List Char :=
  match shortEscapes.lookup character with
  | some letter => ['\\', letter]
  | none =>
      if character.toNat < 0x20 then
        ['\\', 'u', '0', '0', hexDigit (character.toNat / 16),
          hexDigit (character.toNat % 16)]
      else [character]

/-- The text between quotes. -/
def quoteText (text : String) : String :=
  "\"" ++ String.ofList (text.toList.flatMap escapeCharacter) ++ "\""

/-- The character that an escape of two characters stands for. -/
def unescapeLetter (letter : Char) : Option Char :=
  (shortEscapes.find? fun escape => escape.2 = letter).map Prod.fst

/-- The character of the basic plane that four digits stand for. -/
def unescapeDigits (first second third fourth : Char) : Option Char :=
  match hexDigitValue first, hexDigitValue second, hexDigitValue third,
      hexDigitValue fourth with
  | some first, some second, some third, some fourth =>
      some
        (Char.ofNat
          (((first * 16 + second) * 16 + third) * 16 + fourth))
  | _, _, _, _ => none

/-- A character in front of what was read. -/
def readInFront (character : Option Char)
    (read : Option (List Char × List Char)) :
    Option (List Char × List Char) :=
  match character, read with
  | some character, some (text, rest) => some (character :: text, rest)
  | _, _ => none

/-- Read up to the closing quote. -/
def readQuoted : List Char → Option (List Char × List Char)
  | [] => none
  | '"' :: rest => some ([], rest)
  | '\\' :: 'u' :: first :: second :: third :: fourth :: rest =>
      readInFront (unescapeDigits first second third fourth)
        (readQuoted rest)
  | '\\' :: letter :: rest =>
      readInFront (unescapeLetter letter) (readQuoted rest)
  | character :: rest => readInFront (some character) (readQuoted rest)

theorem hexDigitValue_hexDigit :
    ∀ value : Fin 16, hexDigitValue (hexDigit value) = some value.1 := by
  decide

theorem mem_of_lookup_shortEscapes
    {character letter : Char}
    (escaped : shortEscapes.lookup character = some letter) :
    (character, letter) ∈ shortEscapes := by
  obtain ⟨before, after, isTable, _⟩ := List.lookup_eq_some_iff.mp escaped
  rw [isTable]
  simp

theorem unescapeLetter_of_lookup
    {character letter : Char}
    (escaped : shortEscapes.lookup character = some letter) :
    unescapeLetter letter = some character ∧ letter ≠ 'u' := by
  have isEscape := mem_of_lookup_shortEscapes escaped
  fin_cases isEscape <;> decide

theorem readQuoted_short
    {letter : Char} (notDigits : letter ≠ 'u') (rest : List Char) :
    readQuoted ('\\' :: letter :: rest) =
      readInFront (unescapeLetter letter) (readQuoted rest) := by
  rw [readQuoted]
  rintro first second third fourth others rfl
  exact absurd rfl notDigits

theorem readQuoted_plain
    {character : Char} (notQuote : character ≠ '"')
    (notEscape : character ≠ '\\') (rest : List Char) :
    readQuoted (character :: rest) =
      readInFront (some character) (readQuoted rest) := by
  rw [readQuoted]
  · exact notQuote
  · rintro first second third fourth others rfl
    exact absurd rfl notEscape
  · rintro letter others rfl
    exact absurd rfl notEscape

theorem readQuoted_digits
    {value : Nat} (small : value < 0x20) (rest : List Char) :
    readQuoted
        ('\\' :: 'u' :: '0' :: '0' :: hexDigit (value / 16) ::
          hexDigit (value % 16) :: rest) =
      readInFront (some (Char.ofNat value)) (readQuoted rest) := by
  have high : hexDigitValue (hexDigit (value / 16)) = some (value / 16) :=
    hexDigitValue_hexDigit ⟨value / 16, by omega⟩
  have low : hexDigitValue (hexDigit (value % 16)) = some (value % 16) :=
    hexDigitValue_hexDigit ⟨value % 16, by omega⟩
  have zero : hexDigitValue '0' = some 0 := by
    decide
  have whole : ((0 * 16 + 0) * 16 + value / 16) * 16 + value % 16 = value := by
    omega
  rw [readQuoted, unescapeDigits, zero, high, low]
  simp only [whole]

/-- Reading undoes the escape of one character. -/
theorem readQuoted_escape (character : Char) (rest : List Char) :
    readQuoted (escapeCharacter character ++ rest) =
      readInFront (some character) (readQuoted rest) := by
  unfold escapeCharacter
  split
  · rename_i letter escaped
    obtain ⟨isCharacter, notDigits⟩ := unescapeLetter_of_lookup escaped
    rw [List.cons_append, List.cons_append, List.nil_append,
      readQuoted_short notDigits, isCharacter]
  · rename_i plain
    split
    · rename_i small
      simp only [List.cons_append, List.nil_append]
      rw [readQuoted_digits small, Char.ofNat_toNat]
    · have notQuote : character ≠ '"' := by
        rintro rfl
        cases plain
      have notEscape : character ≠ '\\' := by
        rintro rfl
        cases plain
      exact readQuoted_plain notQuote notEscape rest

/-- Reading undoes the quoting, whatever follows. -/
theorem readQuoted_quoted (text rest : List Char) :
    readQuoted (text.flatMap escapeCharacter ++ '"' :: rest) =
      some (text, rest) := by
  induction text with
  | nil => rfl
  | cons character others inductionHypothesis =>
      rw [List.flatMap_cons, List.append_assoc, readQuoted_escape,
        inductionHypothesis]
      rfl

theorem utf8Size_hexDigit :
    ∀ value : Fin 16, (hexDigit value).utf8Size = 1 := by
  decide

theorem utf8Size_of_lookup
    {character letter : Char}
    (escaped : shortEscapes.lookup character = some letter) :
    letter.utf8Size = 1 := by
  have isEscape := mem_of_lookup_shortEscapes escaped
  fin_cases isEscape <;> rfl

/-- An escape takes at most six times the bytes of its character. -/
theorem escapeCharacter_size (character : Char) :
    ((escapeCharacter character).map Char.utf8Size).sum ≤
      6 * character.utf8Size := by
  have positive := character.utf8Size_pos
  unfold escapeCharacter
  split
  · rename_i letter escaped
    have letterSize := utf8Size_of_lookup escaped
    have backslash : '\\'.utf8Size = 1 := rfl
    simp only [List.map_cons, List.map_nil, List.sum_cons, List.sum_nil]
    omega
  · split
    · rename_i small
      have high := utf8Size_hexDigit ⟨character.toNat / 16, by omega⟩
      have low := utf8Size_hexDigit ⟨character.toNat % 16, by omega⟩
      have backslash : '\\'.utf8Size = 1 := rfl
      have letter : 'u'.utf8Size = 1 := rfl
      have zero : '0'.utf8Size = 1 := rfl
      dsimp only at high low
      simp only [List.map_cons, List.map_nil, List.sum_cons, List.sum_nil]
      omega
    · simp only [List.map_cons, List.map_nil, List.sum_cons, List.sum_nil]
      omega

theorem escapedText_size (text : List Char) :
    ((text.flatMap escapeCharacter).map Char.utf8Size).sum ≤
      6 * (text.map Char.utf8Size).sum := by
  induction text with
  | nil => exact le_refl 0
  | cons character others inductionHypothesis =>
      have first := escapeCharacter_size character
      rw [List.flatMap_cons, List.map_append, List.sum_append,
        List.map_cons, List.sum_cons]
      omega

theorem quoteText_size (text : String) :
    (quoteText text).utf8ByteSize ≤ 6 * text.utf8ByteSize + 2 := by
  have escaped := escapedText_size text.toList
  have quote : "\"".utf8ByteSize = 1 := rfl
  rw [quoteText, String.utf8ByteSize_append, String.utf8ByteSize_append,
    quote, utf8ByteSize_ofList (text.toList.flatMap _),
    utf8ByteSize_eq_sum text]
  omega

/-- Take a string with its quotes off the front of a text. -/
def readString (text : String) : Option (String × String) :=
  (stripPrefix "\"" text).bind fun quoted =>
    (readQuoted quoted.toList).map fun read =>
      (String.ofList read.1, String.ofList read.2)

theorem readString_quoteText (text rest : String) :
    readString (quoteText text ++ rest) = some (text, rest) := by
  have closing : "\"".toList = ['"'] := rfl
  rw [readString, quoteText, String.append_assoc, String.append_assoc,
    stripPrefix_append, Option.bind_some, String.toList_append,
    String.toList_append, String.toList_ofList, closing,
    List.singleton_append, readQuoted_quoted, Option.map_some,
    String.ofList_toList, String.ofList_toList]

end Quiczilla.Foundation
