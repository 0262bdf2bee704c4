import Mathlib.Data.List.Basic
import Mathlib.Data.List.Forall2
import Quiczilla.Foundation.UnixPath

/-!
# Command lines as a POSIX shell reads them

Token recognition with the three kinds of quoting, tilde expansion, pathname
expansion and quote removal.  A line that needs more than that (parameter and
command substitution, a redirection of a numbered descriptor, a quote that is
not closed) is not tokenized.

The characters of a word keep whether they were quoted, because the expansions
depend on it.
-/

namespace Quiczilla.Foundation

structure ShellChar where
  character : Char
  quoted : Bool
  deriving DecidableEq, Repr

abbrev ShellWord := List ShellChar

inductive ShellToken where
  | word (word : ShellWord)
  | operator (text : List Char)
  deriving DecidableEq, Repr

inductive Quoting where
  | unquoted
  | escaped
  | single
  | double
  | doubleEscaped
  | comment
  deriving DecidableEq, Repr

/-- The state of the token recognition; `token` is the one being read and
`beyond` says that the line needs more than is modelled. -/
structure Scan where
  tokens : List ShellToken
  token : Option ShellToken
  quoting : Quoting
  beyond : Bool
  deriving DecidableEq, Repr

namespace Scan

def start : Scan where
  tokens := []
  token := none
  quoting := .unquoted
  beyond := false

def delimit (scan : Scan) : Scan :=
  { scan with
    tokens := scan.tokens ++ scan.token.toList
    token := none }

/-- Append to the word being read, or begin one. -/
def add (scan : Scan) (characters : ShellWord) : Scan :=
  match scan.token with
  | some (.word word) =>
      { scan with token := some (.word (word ++ characters)) }
  | _ => { scan.delimit with token := some (.word characters) }

def withQuoting (scan : Scan) (quoting : Quoting) : Scan :=
  { scan with quoting := quoting }

end Scan

def isBlank (character : Char) : Bool :=
  character == ' ' || character == '\t'

def operatorCharacters : List Char :=
  ['&', '|', ';', '<', '>', '(', ')', '\n']

/-- The operators of more than one character. -/
def longOperators : List (List Char) :=
  [['&', '&'], ['|', '|'], [';', ';'], ['<', '<'], ['>', '>'],
    ['<', '&'], ['>', '&'], ['<', '>'], ['>', '|'], ['<', '<', '-']]

/-- `IO_NUMBER`: the digits before a redirection. -/
def isIoNumber (token : Option ShellToken) (operator : Char) : Bool :=
  (operator == '<' || operator == '>') &&
    match token with
    | some (.word word) =>
        !word.isEmpty &&
          word.all fun character =>
            !character.quoted && character.character.isDigit
    | _ => false

namespace Scan

/-- The longest operator is taken. -/
def operate (scan : Scan) (character : Char) : Scan :=
  match scan.token with
  | some (.operator text) =>
      if longOperators.contains (text ++ [character]) then
        { scan with token := some (.operator (text ++ [character])) }
      else
        { scan.delimit with token := some (.operator [character]) }
  | _ =>
      { scan.delimit with
        token := some (.operator [character])
        beyond := scan.beyond || isIoNumber scan.token character }

def readUnquoted (scan : Scan) (character : Char) : Scan :=
  if character = '\'' then (scan.add []).withQuoting .single
  else if character = '"' then (scan.add []).withQuoting .double
  else if character = '\\' then scan.withQuoting .escaped
  else if character = '$' ∨ character = '\x60' then
    { scan with beyond := true }
  else if isBlank character then scan.delimit
  else if operatorCharacters.contains character then
    scan.operate character
  else
    match scan.token with
    | some (.word _) => scan.add [⟨character, false⟩]
    | _ =>
        if character = '#' then scan.delimit.withQuoting .comment
        else scan.add [⟨character, false⟩]

/-- Inside double quotes. -/
def readDouble (scan : Scan) (character : Char) : Scan :=
  if character = '"' then scan.withQuoting .unquoted
  else if character = '\\' then scan.withQuoting .doubleEscaped
  else if character = '$' ∨ character = '\x60' then
    { scan with beyond := true }
  else scan.add [⟨character, true⟩]

/-- After a backslash inside double quotes. -/
def readDoubleEscaped (scan : Scan) (character : Char) : Scan :=
  if character = '\n' then scan.withQuoting .double
  else if ['$', '\x60', '"', '\\'].contains character then
    (scan.add [⟨character, true⟩]).withQuoting .double
  else
    (scan.add [⟨'\\', true⟩, ⟨character, true⟩]).withQuoting .double

def step (scan : Scan) (character : Char) : Scan :=
  match scan.quoting with
  | .unquoted => scan.readUnquoted character
  | .escaped =>
      -- a backslash and a newline are removed
      if character = '\n' then scan.withQuoting .unquoted
      else (scan.add [⟨character, true⟩]).withQuoting .unquoted
  | .single =>
      if character = '\'' then scan.withQuoting .unquoted
      else scan.add [⟨character, true⟩]
  | .double => scan.readDouble character
  | .doubleEscaped => scan.readDoubleEscaped character
  | .comment =>
      if character = '\n' then
        (scan.withQuoting .unquoted).operate character
      else scan

def run (scan : Scan) (text : List Char) : Scan :=
  text.foldl step scan

def finish (scan : Scan) : Option (List ShellToken) :=
  if scan.beyond then none
  else if scan.quoting = .unquoted ∨ scan.quoting = .comment then
    some scan.delimit.tokens
  else none

@[simp]
theorem run_nil (scan : Scan) : scan.run [] = scan := rfl

@[simp]
theorem run_cons (scan : Scan) (character : Char) (rest : List Char) :
    scan.run (character :: rest) = (scan.step character).run rest := rfl

theorem run_append (scan : Scan) (first second : List Char) :
    scan.run (first ++ second) = (scan.run first).run second :=
  List.foldl_append

end Scan

/-- Token recognition. -/
def tokenize (line : String) : Option (List ShellToken) :=
  (Scan.start.run line.toList).finish

/-! ## Expansions -/

/-- The text of a word without its quotes. -/
def wordText (word : ShellWord) : String :=
  String.ofList (word.map ShellChar.character)

/-- Patterns that are not quoted. -/
def isPattern (word : ShellWord) : Bool :=
  word.any fun character =>
    !character.quoted && ['*', '?', '['].contains character.character

def isClosingBracket (character : ShellChar) : Bool :=
  character.character == ']' && !character.quoted

/-- What follows an opening bracket and an exclamation mark: a character, and
a closing bracket before the next slash. -/
def isBracketBody : ShellWord → Bool
  | [] => false
  | first :: rest =>
      first.character != '/' &&
        (rest.takeWhile fun character =>
          character.character != '/').any isClosingBracket

def isBracket : ShellWord → Bool
  | ⟨'!', false⟩ :: rest => isBracketBody rest
  | ⟨'^', false⟩ :: rest => isBracketBody rest
  | word => isBracketBody word

/-- Words that can match other paths: one of their pattern characters stands
for something, where a bracket stands for something only when it is closed. -/
def isGlob : ShellWord → Bool
  | [] => false
  | character :: rest =>
      (!character.quoted &&
          (['*', '?'].contains character.character ||
            character.character == '[' && isBracket rest)) ||
        isGlob rest

/-- All of the word is quoted. -/
def quotedWord (text : List Char) : ShellWord :=
  text.map fun character => ⟨character, true⟩

/-- Nothing of the word is quoted. -/
def plainWord (text : List Char) : ShellWord :=
  text.map fun character => ⟨character, false⟩

/-- What expansions take from outside of the line: the home directory of the
user, those of other login names, and the existing paths that match a
pattern. -/
structure ShellEnvironment where
  home : String
  login : String → Option String
  matching : ShellWord → List String

/-- The characters before the first slash that is not quoted. -/
def tildePrefix (word : ShellWord) : ShellWord :=
  word.takeWhile fun character =>
    !(character.character == '/' && !character.quoted)

/-- The directory that a tilde-prefix stands for. -/
def ShellEnvironment.tildeDirectory
    (shell : ShellEnvironment) (word : ShellWord) : Option String :=
  match tildePrefix word with
  | ⟨'~', false⟩ :: name =>
      if name.all fun character => !character.quoted then
        if name = [] then some shell.home else shell.login (wordText name)
      else none
  | _ => none

/-- The result of tilde expansion counts as quoted. -/
def ShellEnvironment.expandTilde
    (shell : ShellEnvironment) (word : ShellWord) : ShellWord :=
  match shell.tildeDirectory word with
  | some directory =>
      quotedWord directory.toList ++
        word.drop (tildePrefix word).length
  | none => word

/-- Tilde expansion, pathname expansion and quote removal. -/
def ShellEnvironment.fields
    (shell : ShellEnvironment) (word : ShellWord) : List String :=
  let expanded := shell.expandTilde word
  if isPattern expanded then
    match shell.matching expanded with
    | [] => [wordText expanded]
    | found => found
  else [wordText expanded]

/-! ## Lists of simple commands -/

/-- A simple command with at most one redirection, of its output. -/
structure SimpleCommand where
  words : List ShellWord
  output : Option ShellWord
  deriving DecidableEq, Repr

def SimpleCommand.empty : SimpleCommand where
  words := []
  output := none

/-- Commands joined by `&&`, after the words of `current`. -/
def commandsFrom (current : SimpleCommand) :
    List ShellToken → Option (List SimpleCommand)
  | [] => some [current]
  | .word word :: rest =>
      commandsFrom { current with words := current.words ++ [word] } rest
  | [.operator _] => none
  | .operator text :: .word word :: rest =>
      if text = ['>'] then
        commandsFrom { current with output := some word } rest
      else if text = ['&', '&'] then
        (commandsFrom
            { SimpleCommand.empty with words := [word] } rest).map
          (current :: ·)
      else none
  | .operator _ :: .operator _ :: _ => none

/-- The commands of a line that are joined by `&&`. -/
def commands (line : String) : Option (List SimpleCommand) :=
  (tokenize line).bind (commandsFrom SimpleCommand.empty)

/-- The arguments of a simple command, its name included. -/
def ShellEnvironment.arguments
    (shell : ShellEnvironment) (command : SimpleCommand) : List String :=
  command.words.flatMap shell.fields

/-- The file that a redirection names. -/
def ShellEnvironment.redirection
    (shell : ShellEnvironment) (word : ShellWord) : String :=
  wordText (shell.expandTilde word)

/-! ## Reading one token -/

/-- Between two tokens the text reads as the token, and nothing more. -/
def Reads (text : List Char) (token : ShellToken) : Prop :=
  ∀ tokens,
    Scan.run ⟨tokens, none, .unquoted, false⟩ text =
      ⟨tokens, some token, .unquoted, false⟩

/-- Characters that a shell takes literally outside of quotes, except `#`
where a word begins. -/
def isOrdinary (character : Char) : Bool :=
  !(['\'', '"', '\\', '$', '\x60', ' ', '\t'] ++
    operatorCharacters).contains character

theorem readUnquoted_ordinary
    {scan : Scan} {character : Char}
    (ordinary : isOrdinary character = true)
    (noComment :
      character = '#' → ∃ word, scan.token = some (.word word)) :
    scan.readUnquoted character = scan.add [⟨character, false⟩] := by
  simp only [isOrdinary, Bool.not_eq_true', List.contains_eq_mem,
    decide_eq_false_iff_not, List.mem_append, List.mem_cons,
    List.not_mem_nil, or_false, not_or] at ordinary
  obtain ⟨⟨a, b, c, d, e, f, g⟩, noOperator⟩ := ordinary
  simp only [Scan.readUnquoted, a, b, c, d, e, f, g, isBlank,
    noOperator, List.contains_eq_mem, if_false, beq_iff_eq,
    Bool.or_eq_true, or_self, decide_false, Bool.false_eq_true]
  split
  · rfl
  · rename_i notWord
    rw [if_neg]
    intro isHash
    obtain ⟨word, isWord⟩ := noComment isHash
    exact notWord word isWord

@[simp]
theorem add_word
    (tokens : List ShellToken) (word characters : ShellWord)
    (quoting : Quoting) (beyond : Bool) :
    Scan.add ⟨tokens, some (.word word), quoting, beyond⟩ characters =
      ⟨tokens, some (.word (word ++ characters)), quoting, beyond⟩ := rfl

theorem run_ordinary
    (tokens : List ShellToken) (word : ShellWord) {text : List Char}
    (ordinary : text.all isOrdinary = true) :
    Scan.run ⟨tokens, some (.word word), .unquoted, false⟩ text =
      ⟨tokens, some (.word (word ++ plainWord text)), .unquoted,
        false⟩ := by
  induction text generalizing word with
  | nil => rw [plainWord, List.map_nil, List.append_nil, Scan.run_nil]
  | cons character rest inductionHypothesis =>
      obtain ⟨first, others⟩ := Bool.and_eq_true_iff.mp ordinary
      have stepped :
          Scan.step ⟨tokens, some (.word word), .unquoted, false⟩
              character =
            ⟨tokens, some (.word (word ++ [⟨character, false⟩])),
              .unquoted, false⟩ :=
        readUnquoted_ordinary first fun _ => ⟨word, rfl⟩
      rw [Scan.run_cons, stepped, inductionHypothesis _ others,
        List.append_assoc]
      rfl

/-- A word without special characters stands for itself. -/
theorem reads_plain
    {text : List Char} (ordinary : text.all isOrdinary = true)
    (notEmpty : text ≠ []) (noComment : text.head? ≠ some '#') :
    Reads text (.word (plainWord text)) := by
  intro tokens
  cases text with
  | nil => exact absurd rfl notEmpty
  | cons character rest =>
      obtain ⟨first, others⟩ := Bool.and_eq_true_iff.mp ordinary
      have notHash : character ≠ '#' := by
        rintro rfl
        exact noComment rfl
      have began :
          Scan.add ⟨tokens, none, .unquoted, false⟩
              [⟨character, false⟩] =
            ⟨tokens, some (.word [⟨character, false⟩]), .unquoted,
              false⟩ := by
        simp only [Scan.add, Scan.delimit, Option.toList_none,
          List.append_nil]
      have stepped :
          Scan.step ⟨tokens, none, .unquoted, false⟩ character =
            ⟨tokens, some (.word [⟨character, false⟩]), .unquoted,
              false⟩ := by
        rw [← began]
        exact
          readUnquoted_ordinary first fun isHash =>
            absurd isHash notHash
      rw [Scan.run_cons, stepped, run_ordinary tokens _ others]
      rfl

theorem run_single
    (tokens : List ShellToken) (word : ShellWord) {text : List Char}
    (noQuote : '\'' ∉ text) :
    Scan.run ⟨tokens, some (.word word), .single, false⟩ text =
      ⟨tokens, some (.word (word ++ quotedWord text)), .single,
        false⟩ := by
  induction text generalizing word with
  | nil => rw [quotedWord, List.map_nil, List.append_nil, Scan.run_nil]
  | cons character rest inductionHypothesis =>
      have different : character ≠ '\'' := by
        rintro rfl
        exact noQuote List.mem_cons_self
      have others : '\'' ∉ rest :=
        fun member => noQuote (List.mem_cons_of_mem _ member)
      have stepped :
          Scan.step ⟨tokens, some (.word word), .single, false⟩
              character =
            ⟨tokens, some (.word (word ++ [⟨character, true⟩])),
              .single, false⟩ := by
        simp only [Scan.step, if_neg different, add_word]
      rw [Scan.run_cons, stepped, inductionHypothesis _ others,
        List.append_assoc]
      rfl

/-- Text that double quotes leave as it is. -/
def isDoubleQuotable : List Char → Bool
  | [] => true
  | ['\\'] => false
  | '\\' :: character :: rest =>
      !(['$', '\x60', '"', '\\', '\n'].contains character) &&
        isDoubleQuotable rest
  | character :: rest =>
      !(['"', '$', '\x60'].contains character) && isDoubleQuotable rest

theorem run_double
    (tokens : List ShellToken) (word : ShellWord) {text : List Char}
    (quotable : isDoubleQuotable text = true) :
    Scan.run ⟨tokens, some (.word word), .double, false⟩ text =
      ⟨tokens, some (.word (word ++ quotedWord text)), .double,
        false⟩ := by
  fun_induction isDoubleQuotable text generalizing word with
  | case1 => rw [quotedWord, List.map_nil, List.append_nil, Scan.run_nil]
  | case2 => cases quotable
  | case3 character rest inductionHypothesis =>
      obtain ⟨harmless, others⟩ := Bool.and_eq_true_iff.mp quotable
      simp only [Bool.not_eq_true', List.contains_eq_mem,
        decide_eq_false_iff_not, List.mem_cons, List.not_mem_nil,
        or_false, not_or] at harmless
      obtain ⟨a, b, c, d, e⟩ := harmless
      have stepped :
          (Scan.step ⟨tokens, some (.word word), .double, false⟩
                '\\').step character =
            ⟨tokens,
              some
                (.word (word ++ [⟨'\\', true⟩, ⟨character, true⟩])),
              .double, false⟩ := by
        simp only [Scan.step, Scan.readDouble, Scan.readDoubleEscaped,
          Scan.withQuoting, a, b, c, d, e, List.contains_eq_mem,
          List.mem_cons, List.not_mem_nil, or_self, decide_false,
          if_false, if_true, Bool.false_eq_true, add_word,
          Char.reduceEq]
      rw [Scan.run_cons, Scan.run_cons, stepped,
        inductionHypothesis _ others, List.append_assoc]
      rfl
  | case4 character rest notLast notEscape inductionHypothesis =>
      obtain ⟨harmless, others⟩ := Bool.and_eq_true_iff.mp quotable
      simp only [Bool.not_eq_true', List.contains_eq_mem,
        decide_eq_false_iff_not, List.mem_cons, List.not_mem_nil,
        or_false, not_or] at harmless
      obtain ⟨a, b, c⟩ := harmless
      have noBackslash : character ≠ '\\' := by
        rintro rfl
        cases rest with
        | nil => exact notLast rfl rfl
        | cons next more => exact notEscape next more rfl rfl
      have stepped :
          Scan.step ⟨tokens, some (.word word), .double, false⟩
              character =
            ⟨tokens, some (.word (word ++ [⟨character, true⟩])),
              .double, false⟩ := by
        simp only [Scan.step, Scan.readDouble, a, b, c, noBackslash,
          if_false, or_self, add_word]
      rw [Scan.run_cons, stepped, inductionHypothesis _ others,
        List.append_assoc]
      rfl

/-- A word in double quotes. -/
theorem reads_double
    {text : List Char} (quotable : isDoubleQuotable text = true) :
    Reads ('"' :: text ++ ['"']) (.word (quotedWord text)) := by
  intro tokens
  have opened :
      Scan.step ⟨tokens, none, .unquoted, false⟩ '"' =
        ⟨tokens, some (.word []), .double, false⟩ := by
    simp only [Scan.step, Scan.readUnquoted, Scan.add, Scan.delimit,
      Scan.withQuoting, Option.toList_none, List.append_nil,
      Char.reduceEq, if_false, if_true]
  rw [List.cons_append, Scan.run_cons, opened, Scan.run_append,
    run_double tokens [] quotable]
  rfl

theorem reads_and : Reads ['&', '&'] (.operator ['&', '&']) := by
  intro tokens
  simp [Scan.step, Scan.readUnquoted, Scan.operate, Scan.delimit,
    isBlank, operatorCharacters, longOperators, isIoNumber]

theorem reads_output : Reads ['>'] (.operator ['>']) := by
  intro tokens
  simp [Scan.step, Scan.readUnquoted, Scan.operate, Scan.delimit,
    isBlank, operatorCharacters, isIoNumber]

/-- A blank ends a token. -/
theorem step_blank
    (tokens : List ShellToken) (token : ShellToken) :
    Scan.step ⟨tokens, some token, .unquoted, false⟩ ' ' =
      ⟨tokens ++ [token], none, .unquoted, false⟩ := rfl

/-- Texts that read as tokens, joined by blanks. -/
theorem run_joined
    {text : List Char} {texts : List (List Char)} {token : ShellToken}
    {others : List ShellToken} (tokens : List ShellToken)
    (first : Reads text token) (rest : List.Forall₂ Reads texts others) :
    (Scan.run ⟨tokens, none, .unquoted, false⟩
        (List.intercalate [' '] (text :: texts))).finish =
      some (tokens ++ token :: others) := by
  induction rest generalizing text token tokens with
  | nil =>
      rw [List.intercalate_singleton, first]
      rfl
  | cons next rest inductionHypothesis =>
      rw [List.intercalate_cons_cons, Scan.run_append, Scan.run_append,
        first, Scan.run_cons, step_blank, Scan.run_nil,
        inductionHypothesis _ next, List.append_assoc]
      rfl

theorem tokenize_joined
    {text : List Char} {texts : List (List Char)} {token : ShellToken}
    {others : List ShellToken} {line : String}
    (isLine : line.toList = List.intercalate [' '] (text :: texts))
    (first : Reads text token) (rest : List.Forall₂ Reads texts others) :
    tokenize line = some (token :: others) := by
  rw [tokenize, isLine]
  exact run_joined [] first rest

/-! ## Words that stand for themselves -/

section Fields

variable (shell : ShellEnvironment)

theorem wordText_quoted (text : List Char) :
    wordText (quotedWord text) = String.ofList text := by
  simp [wordText, quotedWord, Function.comp_def]

theorem wordText_plain (text : List Char) :
    wordText (plainWord text) = String.ofList text := by
  simp [wordText, plainWord, Function.comp_def]

theorem expandTilde_quoted (text : List Char) :
    shell.expandTilde (quotedWord text) = quotedWord text := by
  have noTilde : shell.tildeDirectory (quotedWord text) = none := by
    cases text with
    | nil => rfl
    | cons character rest =>
        simp [ShellEnvironment.tildeDirectory, tildePrefix, quotedWord]
  rw [ShellEnvironment.expandTilde, noTilde]

/-- A quoted word is not expanded. -/
theorem fields_quoted (text : List Char) :
    shell.fields (quotedWord text) = [String.ofList text] := by
  have noPattern : isPattern (quotedWord text) = false := by
    simp [isPattern, quotedWord]
  rw [ShellEnvironment.fields, expandTilde_quoted]
  simp only [noPattern, Bool.false_eq_true, if_false, wordText_quoted]

theorem redirection_quoted (text : List Char) :
    shell.redirection (quotedWord text) = String.ofList text := by
  rw [ShellEnvironment.redirection, expandTilde_quoted, wordText_quoted]

/-- A word without quotes is kept when it is no tilde-prefix and matches no
other path. -/
theorem fields_plain
    {text : List Char}
    (noTilde : shell.tildeDirectory (plainWord text) = none)
    (noMatch :
      isPattern (plainWord text) = true →
        shell.matching (plainWord text) = [] ∨
          shell.matching (plainWord text) = [String.ofList text]) :
    shell.fields (plainWord text) = [String.ofList text] := by
  have same : shell.expandTilde (plainWord text) = plainWord text := by
    rw [ShellEnvironment.expandTilde, noTilde]
  rw [ShellEnvironment.fields, same]
  by_cases pattern : isPattern (plainWord text) = true
  · rcases noMatch pattern with none | alone
    · simp only [pattern, none, if_true, wordText_plain]
    · simp only [pattern, alone, if_true]
  · simp only [pattern, Bool.false_eq_true, if_false, wordText_plain]

theorem isPattern_of_isGlob {word : ShellWord} (glob : isGlob word = true) :
    isPattern word = true := by
  induction word with
  | nil => cases glob
  | cons character rest inductionHypothesis =>
      simp only [isGlob, Bool.or_eq_true, Bool.and_eq_true] at glob
      rw [isPattern, List.any_cons, Bool.or_eq_true, Bool.and_eq_true]
      rcases glob with ⟨unquoted, special | ⟨bracket, _⟩⟩ | later
      · left
        refine ⟨unquoted, ?_⟩
        simp only [List.contains_eq_mem, List.mem_cons, List.not_mem_nil,
          or_false, decide_eq_true_eq] at special ⊢
        exact Or.imp_right Or.inl special
      · left
        refine ⟨unquoted, ?_⟩
        simp only [beq_iff_eq] at bracket
        rw [bracket]
        decide
      · exact Or.inr (inductionHypothesis later)

/-- Without a leading tilde there is no tilde-prefix. -/
theorem tildeDirectory_plain
    {text : List Char} (noTilde : text.head? ≠ some '~') :
    shell.tildeDirectory (plainWord text) = none := by
  cases text with
  | nil => rfl
  | cons character rest =>
      have different : character ≠ '~' := by
        simpa using noTilde
      by_cases slash : character = '/'
      · simp [ShellEnvironment.tildeDirectory, tildePrefix, plainWord,
          slash]
      · simp [ShellEnvironment.tildeDirectory, tildePrefix, plainWord,
          slash, different]

/-- A path below the home directory. -/
theorem fields_home
    {text : List Char} (noPattern : isPattern (plainWord text) = false) :
    shell.fields (plainWord ('~' :: '/' :: text)) =
      [shell.home ++ String.ofList ('/' :: text)] := by
  have isPrefix :
      tildePrefix (plainWord ('~' :: '/' :: text)) = [⟨'~', false⟩] := by
    simp [tildePrefix, plainWord]
  have expanded :
      shell.expandTilde (plainWord ('~' :: '/' :: text)) =
        quotedWord shell.home.toList ++ plainWord ('/' :: text) := by
    simp only [ShellEnvironment.expandTilde,
      ShellEnvironment.tildeDirectory, isPrefix, List.all_nil, if_true,
      List.length_singleton]
    rfl
  have stillNoPattern :
      isPattern
          (quotedWord shell.home.toList ++ plainWord ('/' :: text)) =
        false := by
    simp only [isPattern, List.any_append, Bool.or_eq_false_iff]
    refine ⟨by simp [quotedWord], ?_⟩
    simpa [plainWord, isPattern] using noPattern
  have isText :
      wordText
          (quotedWord shell.home.toList ++ plainWord ('/' :: text)) =
        shell.home ++ String.ofList ('/' :: text) := by
    simp [wordText, quotedWord, plainWord, Function.comp_def]
  rw [ShellEnvironment.fields, expanded]
  simp only [stillNoPattern, Bool.false_eq_true, if_false, isText]

end Fields

end Quiczilla.Foundation
