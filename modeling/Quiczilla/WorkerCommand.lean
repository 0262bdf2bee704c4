import Mathlib.Data.Bool.AllAny
import Mathlib.Tactic.Ring
import Quiczilla.Foundation.ShellInverse
import Quiczilla.SshFallback

/-!
# The command line of the worker

The CLI starts the worker through the login shell of the remote: an installed
one by its quoted path, a cached one below `~/.cache`.  Behind the program it
puts the arguments as `worker_arg_str` joins them, which wraps those with a
space in double quotes and leaves all others as they are.
-/

namespace Quiczilla

open Foundation

/-! ## Starting a worker -/

/-- The worker that the bootstrap has decided for. -/
inductive WorkerProgram where
  | cached (worker : CachedWorker)
  | installed (workerPath : String)
  deriving DecidableEq, Repr

/-- `strip_prefix("~/")`. -/
def stripHome (workerPath : String) : Option String :=
  match workerPath.toList with
  | '~' :: '/' :: rel => some (String.ofList rel)
  | _ => none

/-- The `quoted_path` of `run_installed_worker`. -/
def quotedPath (workerPath : String) : String :=
  match stripHome workerPath with
  | some rel => "$HOME/" ++ shellQuote rel
  | none => shellQuote workerPath

namespace WorkerProgram

/-- What `run_cached_worker` and `run_installed_worker` pass to ssh. -/
def runCmd (program : WorkerProgram) (workerArgStr : String) : String :=
  match program with
  | cached worker => worker.path ++ " " ++ workerArgStr
  | installed workerPath => quotedPath workerPath ++ " " ++ workerArgStr

/-- The program that is meant. -/
def location (shell : ShellEnvironment) : WorkerProgram → String
  | cached worker =>
      -- behind the tilde
      shell.home ++ String.ofList (worker.path.toList.drop 1)
  | installed workerPath =>
      match stripHome workerPath with
      | some rel => shell.home ++ "/" ++ rel
      | none => workerPath

/-- The names of a cached worker are digits and a version. -/
def IsPlain : WorkerProgram → Prop
  | cached worker => worker.IsPlain
  | installed _ => True

instance (program : WorkerProgram) : Decidable program.IsPlain :=
  match program with
  | cached worker => inferInstanceAs (Decidable worker.IsPlain)
  | installed _ => inferInstanceAs (Decidable True)

end WorkerProgram

/-- The parameter expansion of `$HOME` where a line begins.  Its value is read
on as it is, as it has nothing special in it. -/
def expandHome (shell : ShellEnvironment) (line : String) : String :=
  match line.toList with
  | '$' :: 'H' :: 'O' :: 'M' :: 'E' :: '/' :: rest =>
      shell.home ++ String.ofList ('/' :: rest)
  | _ => line

/-- What can be said of every remote: home directories are absolute, that of
the user is a plain word, and only patterns match other paths. -/
structure IsRemote (shell : ShellEnvironment) : Prop where
  home : shell.home.toList.head? = some '/'
  homeHarmless : IsHarmless shell.home.toList
  login :
    ∀ name directory, shell.login name = some directory →
      directory.toList.head? = some '/'
  matching :
    ∀ word, isGlob word = false →
      shell.matching word = [] ∨ shell.matching word = [wordText word]

/-- The line runs the program with these arguments, and nothing else. -/
def Starts
    (shell : ShellEnvironment) (line program : String)
    (arguments : List String) : Prop :=
  ∃ command,
    commands (expandHome shell line) = some [command] ∧
      command.output = none ∧
        shell.arguments command = program :: arguments

/-- Letters, digits and what printed addresses have besides. -/
def isPrintedCharacter (character : Char) : Bool :=
  character.isAlphanum || ['.', ':', '[', ']', '%'].contains character

def IsPrinted (value : String) : Prop :=
  value ≠ "" ∧ value.toList.all isPrintedCharacter = true

instance (value : String) : Decidable (IsPrinted value) :=
  inferInstanceAs (Decidable (_ ∧ _))

/-- The options besides the directory are a thumbprint, addresses and
ports. -/
structure TransferOptions.Printed (options : TransferOptions) : Prop where
  localThumbprint : IsPrinted options.localThumbprint
  publicCandidate :
    ∀ ip port, options.publicCandidate = some (ip, port) →
      IsPrinted ip ∧ IsPrinted port
  localUdpPort : IsPrinted options.localUdpPort
  stunServer :
    ∀ server, options.stunServer = some server → IsPrinted server
  quicPort : ∀ port, options.quicPort = some port → IsPrinted port

/-- The arguments that `worker_arg_str` gets right: with a space, nothing that
is special in double quotes; without one, a word that is not empty, begins no
comment and no tilde-prefix, has nothing special in it and is no pattern. -/
def StaysOneWord (argument : String) : Prop :=
  if ' ' ∈ argument.toList then
    isDoubleQuotable argument.toList = true
  else
    argument ≠ "" ∧ argument.toList.head? ≠ some '#' ∧
      argument.toList.head? ≠ some '~' ∧
        argument.toList.all isOrdinary = true ∧
          isGlob (plainWord argument.toList) = false

instance (argument : String) : Decidable (StaysOneWord argument) :=
  inferInstanceAs (Decidable (ite _ (_ = true) (_ ∧ _ ∧ _ ∧ _ ∧ _)))

/-! ## Arguments that stay as they are -/

section Kept

variable {shell : ShellEnvironment}

theorem keptByShell_of_staysOneWord
    (remote : IsRemote shell) {argument : String}
    (stays : StaysOneWord argument) : KeptByShell shell argument := by
  unfold StaysOneWord at stays
  unfold KeptByShell
  split at stays
  · rename_i spaced
    rw [if_pos spaced]
    exact stays
  · rename_i unspaced
    rw [if_neg unspaced]
    obtain ⟨notEmpty, noComment, noTilde, ordinary, noGlob⟩ := stays
    refine
      ⟨notEmpty, noComment, ordinary, tildeDirectory_plain shell noTilde,
        fun _ => ?_⟩
    have matching := remote.matching _ noGlob
    rw [wordText_plain, String.ofList_toList] at matching
    exact matching

/-- A quoted text behind the beginning of a word. -/
theorem run_shellQuote
    (tokens : List ShellToken) (word : ShellWord) (value : String) :
    Scan.run ⟨tokens, some (.word word), .unquoted, false⟩
        (shellQuote value).toList =
      ⟨tokens, some (.word (word ++ quotedWord value.toList)),
        .unquoted, false⟩ := by
  have opened :
      Scan.step ⟨tokens, some (.word word), .unquoted, false⟩ '\'' =
        ⟨tokens, some (.word word), .single, false⟩ := by
    simp [Scan.step, Scan.readUnquoted, Scan.withQuoting]
  rw [shellQuote, String.toList_ofList, List.cons_append,
    Scan.run_cons, opened, Scan.run_append, run_replaceQuotes]
  rfl

theorem readsField_belowHome
    (remote : IsRemote shell) (rel : String) :
    ReadsField shell
      (shell.home.toList ++ '/' :: (shellQuote rel).toList)
      (shell.home ++ "/" ++ rel) := by
  have absolute := remote.home
  obtain ⟨ordinary, noPattern⟩ :=
    remote.homeHarmless.append (by decide : IsHarmless ['/'])
  obtain ⟨rest, isHome⟩ :
      ∃ rest, shell.home.toList ++ ['/'] = '/' :: rest := by
    cases home : shell.home.toList with
    | nil =>
        rw [home] at absolute
        cases absolute
    | cons first others =>
        rw [home] at absolute
        exact ⟨others ++ ['/'], by rw [Option.some.inj absolute]; rfl⟩
  refine
    ⟨plainWord (shell.home.toList ++ ['/']) ++ quotedWord rel.toList,
      ?_, ?_⟩
  · intro tokens
    have began :=
      reads_plain ordinary (by rw [isHome]; exact List.cons_ne_nil _ _)
        (by rw [isHome]; simp) tokens
    have split :
        shell.home.toList ++ '/' :: (shellQuote rel).toList =
          (shell.home.toList ++ ['/']) ++ (shellQuote rel).toList := by
      rw [List.append_assoc]
      rfl
    rw [split, Scan.run_append, began, run_shellQuote]
  · have noTilde :
        shell.expandTilde
            (plainWord (shell.home.toList ++ ['/']) ++
              quotedWord rel.toList) =
          plainWord (shell.home.toList ++ ['/']) ++
            quotedWord rel.toList := by
      rw [isHome]
      simp [ShellEnvironment.expandTilde,
        ShellEnvironment.tildeDirectory, tildePrefix, plainWord]
    have stillNoPattern :
        isPattern
            (plainWord (shell.home.toList ++ ['/']) ++
              quotedWord rel.toList) =
          false := by
      simp only [isPattern, List.any_append, Bool.or_eq_false_iff]
      exact ⟨noPattern, by simp [quotedWord]⟩
    have isText :
        wordText
            (plainWord (shell.home.toList ++ ['/']) ++
              quotedWord rel.toList) =
          shell.home ++ "/" ++ rel := by
      rw [← String.toList_inj]
      simp [wordText, plainWord, quotedWord, Function.comp_def]
    rw [ShellEnvironment.fields, noTilde]
    simp only [stillNoPattern, Bool.false_eq_true, if_false, isText]

/-- Behind the program the line is `worker_arg_str`. -/
theorem runCmd_shape
    (remote : IsRemote shell) {program : WorkerProgram}
    (named : program.IsPlain) :
    ∃ text, ReadsField shell text (program.location shell) ∧
      ∀ workerArgStr,
        (expandHome shell (program.runCmd workerArgStr)).toList =
          text ++ ' ' :: workerArgStr.toList := by
  cases program with
  | cached worker =>
      obtain ⟨text, path, reads⟩ := @readsField_worker shell worker named
      refine ⟨worker.path.toList, ?_, ?_⟩
      · rw [WorkerProgram.location, path, List.drop_succ_cons,
          List.drop_zero, ← path]
        exact reads
      · intro workerArgStr
        have isLine :
            ((WorkerProgram.cached worker).runCmd workerArgStr).toList =
              worker.path.toList ++ ' ' :: workerArgStr.toList := by
          simp [WorkerProgram.runCmd]
        rw [← isLine]
        congr 1
        unfold expandHome
        rw [isLine, path]
        rfl
  | installed workerPath =>
      cases strip : stripHome workerPath with
      | none =>
          refine ⟨(shellQuote workerPath).toList, ?_, ?_⟩
          · simp only [WorkerProgram.location, strip]
            exact readsField_shellQuote workerPath
          · intro workerArgStr
            have isLine :
                ((WorkerProgram.installed workerPath).runCmd
                    workerArgStr).toList =
                  (shellQuote workerPath).toList ++
                    ' ' :: workerArgStr.toList := by
              simp [WorkerProgram.runCmd, quotedPath, strip]
            rw [← isLine]
            congr 1
            unfold expandHome
            rw [isLine, shellQuote, String.toList_ofList]
            rfl
      | some rel =>
          refine
            ⟨shell.home.toList ++ '/' :: (shellQuote rel).toList, ?_, ?_⟩
          · simp only [WorkerProgram.location, strip]
            exact readsField_belowHome remote rel
          · intro workerArgStr
            have isLine :
                ((WorkerProgram.installed workerPath).runCmd
                    workerArgStr).toList =
                  '$' :: 'H' :: 'O' :: 'M' :: 'E' :: '/' ::
                    ((shellQuote rel).toList ++
                      ' ' :: workerArgStr.toList) := by
              simp [WorkerProgram.runCmd, quotedPath, strip]
            unfold expandHome
            rw [isLine]
            simp

/-- The shell starts the program with arguments that stay as they are. -/
theorem starts_of_staysOneWord
    (remote : IsRemote shell) {program : WorkerProgram}
    (named : program.IsPlain) {arguments : List String}
    (notEmpty : arguments ≠ [])
    (stay : ∀ argument ∈ arguments, StaysOneWord argument) :
    Starts shell (program.runCmd (workerArgStr arguments))
      (program.location shell) arguments := by
  obtain ⟨text, readsProgram, isLine⟩ := runCmd_shape remote named
  refine arguments_behind (isLine _) readsProgram notEmpty ?_
  intro argument member
  exact keptByShell_of_staysOneWord remote (stay argument member)

end Kept

/-! ## Printed arguments -/

theorem ordinary_of_printed
    {character : Char} (printed : isPrintedCharacter character = true) :
    isOrdinary character = true := by
  by_contra special
  simp only [isOrdinary, Bool.not_eq_true', Bool.not_eq_false,
    List.contains_eq_mem, decide_eq_true_eq] at special
  have refused :
      ∀ other ∈ ['\'', '"', '\\', '$', '\x60', ' ', '\t'] ++
          operatorCharacters,
        isPrintedCharacter other = false :=
    List.all_iff_forall_prop.mp (by decide)
  rw [refused character special] at printed
  cases printed

theorem isPlainText_of_printed
    {value : String} (printed : IsPrinted value) :
    Scan.IsPlainText value.toList := by
  obtain ⟨notEmpty, characters⟩ := printed
  refine ⟨?_, ?_, ?_⟩
  · intro isNil
    exact notEmpty (String.toList_eq_nil_iff.mp isNil)
  · intro isComment
    have member := List.mem_of_mem_head? isComment
    have isPrinted := List.all_eq_true.mp characters '#' member
    cases isPrinted
  · rw [List.all_eq_true] at characters ⊢
    intro character member
    exact ordinary_of_printed (characters character member)

/-! ## An argument between plain ones -/

theorem wrapArgument_plain
    {argument : String} (plain : Scan.IsPlainText argument.toList) :
    wrapArgument argument = argument := by
  rw [wrapArgument, if_neg]
  exact plain.not_mem rfl

section Between

variable {text : List Char} {programWord : ShellWord}
  {program argument first : String} {before rest : List String}

/-- The tokens in front of the argument. -/
def tokensBefore (programWord : ShellWord) (before : List String) :
    List ShellToken :=
  .word programWord ::
    Scan.plainTokens (before.map String.toList)

/-- The scan in front of the blank behind the argument. -/
def scanOf (programWord : ShellWord) (before : List String)
    (argument : String) : Scan :=
  Scan.run ⟨tokensBefore programWord before, none, .unquoted, false⟩
    (wrapArgument argument).toList

theorem length_tokensBefore :
    (tokensBefore programWord before).length = before.length + 1 := by
  simp [tokensBefore, Scan.plainTokens]

theorem workerArgStr_between
    (plainBefore :
      ∀ other ∈ before, Scan.IsPlainText other.toList)
    (plainRest :
      ∀ other ∈ first :: rest, Scan.IsPlainText other.toList) :
    (workerArgStr (before ++ argument :: first :: rest)).toList =
      ((before.map String.toList).flatMap fun text => text ++ [' ']) ++
        ((wrapArgument argument).toList ++
          ' ' ::
            List.intercalate [' ']
              ((first :: rest).map String.toList)) := by
  have same (others : List String)
      (plain : ∀ other ∈ others, Scan.IsPlainText other.toList) :
      (others.map fun other => (wrapArgument other).toList) =
        others.map String.toList := by
    apply List.map_congr_left
    intro other member
    rw [wrapArgument_plain (plain other member)]
  rw [workerArgStr, String.toList_ofList, List.map_append, List.map_cons,
    same before plainBefore, same (first :: rest) plainRest,
    Scan.intercalate_append,
    List.intercalate_cons_of_ne_nil (by simp)]
  simp

theorem run_between
    (readsProgram : Reads text (.word programWord))
    (plainBefore :
      ∀ other ∈ before, Scan.IsPlainText other.toList)
    (plainRest :
      ∀ other ∈ first :: rest, Scan.IsPlainText other.toList) :
    Scan.start.run
        (text ++
          ' ' ::
            (workerArgStr
              (before ++ argument :: first :: rest)).toList) =
      (scanOf programWord before argument).run
        (' ' ::
          List.intercalate [' ']
            ((first :: rest).map String.toList)) := by
  have reads :
      List.Forall₂ Reads (text :: before.map String.toList)
        (tokensBefore programWord before) := by
    refine List.Forall₂.cons readsProgram (Scan.reads_plainTokens ?_)
    intro other member
    obtain ⟨value, isValue, rfl⟩ := List.mem_map.mp member
    exact plainBefore value isValue
  have separated := Scan.run_separated [] reads
  rw [List.flatMap_cons, List.append_assoc, List.nil_append] at separated
  rw [workerArgStr_between plainBefore plainRest, scanOf, ← separated,
    ← Scan.run_append, ← Scan.run_append, Scan.start]
  simp only [List.append_assoc, List.cons_append, List.nil_append]

/-- What the fields of a bare shell say of the word at a place. -/
theorem word_of_field
    {words : List ShellWord} {fields : List String} {number : Nat}
    {field : String}
    (areFields :
      (words.map fun word => wordText (bareShell.expandTilde word)) =
        fields)
    (isField : fields[number]? = some field) :
    ∃ word, words[number]? = some word ∧
      wordText (bareShell.expandTilde word) = field := by
  rw [← areFields, List.getElem?_map, Option.map_eq_some_iff] at isField
  exact isField

theorem length_of_field
    {word : ShellWord} {field : String}
    (isField : wordText (bareShell.expandTilde word) = field) :
    field.toList.length ≤ word.length := by
  rw [← isField, length_wordText]
  exact length_expandTilde_bareShell word

theorem length_wrapArgument (argument : String) :
    (wrapArgument argument).toList.length ≤
      argument.toList.length + 2 := by
  unfold wrapArgument
  split
  · simp
  · omega

theorem arrived_scanOf :
    (scanOf programWord before argument).arrived ≤
      tokensSize (tokensBefore programWord before) +
        (argument.toList.length + 2) := by
  have start :
      Scan.arrived
          ⟨tokensBefore programWord before, none, .unquoted, false⟩ =
        tokensSize (tokensBefore programWord before) := by
    rw [Scan.arrived_of_quoting (@rfl _ Quoting.unquoted) (by decide),
      Scan.all]
    exact congrArg _ (List.append_nil _)
  have read :=
    Scan.arrived_run
      ⟨tokensBefore programWord before, none, .unquoted, false⟩
      (wrapArgument argument).toList
  have wrapped := length_wrapArgument argument
  rw [scanOf]
  omega

theorem isPrefix_tokensBefore :
    ∃ later,
      (scanOf programWord before argument).all =
        tokensBefore programWord before ++ later := by
  obtain ⟨later, isTokens⟩ :=
    Scan.tokens_prefix_run
      ⟨tokensBefore programWord before, none, .unquoted, false⟩
      (wrapArgument argument).toList
  refine ⟨later ++ (scanOf programWord before argument).token.toList, ?_⟩
  rw [Scan.all, scanOf, ← isTokens, List.append_assoc]

/-- Where the line gives as many fields as there are arguments, the scan of
the argument ends between two words, with one word for it. -/
theorem scanOf_of_words
    {words : List ShellWord}
    (plainRest :
      ∀ other ∈ first :: rest, Scan.IsPlainText other.toList)
    (long : 2 < first.toList.length)
    (finished :
      ((scanOf programWord before argument).run
        (' ' ::
          List.intercalate [' ']
            ((first :: rest).map String.toList))).finish =
        some (words.map ShellToken.word))
    (areFields :
      (words.map fun word => wordText (bareShell.expandTilde word)) =
        program :: (before ++ argument :: first :: rest)) :
    (scanOf programWord before argument).quoting = .unquoted ∧
      (scanOf programWord before argument).beyond = false ∧
        ∃ word,
          (scanOf programWord before argument).all =
              tokensBefore programWord before ++ [.word word] ∧
            wordText (bareShell.expandTilde word) = argument := by
  have plainTexts :
      ∀ other ∈ first.toList :: rest.map String.toList,
        Scan.IsPlainText other := by
    intro other member
    rw [← List.map_cons, List.mem_map] at member
    obtain ⟨value, isValue, rfl⟩ := member
    exact plainRest value isValue
  have count := congrArg List.length areFields
  simp only [List.length_map, List.length_cons, List.length_append]
    at count
  obtain ⟨word, isWord, isArgument⟩ :=
    @word_of_field words _ (before.length + 1) argument areFields
      (by simp)
  obtain ⟨next, isNext, isFirst⟩ :=
    @word_of_field words _ (before.length + 2) first areFields (by simp)
  obtain ⟨later, isAll⟩ :=
    @isPrefix_tokensBefore programWord argument before
  have tokenAt (number : Nat) :
      (words.map ShellToken.word)[number]? =
        words[number]?.map ShellToken.word :=
    List.getElem?_map
  have wordToken := tokenAt (before.length + 1)
  have nextToken := tokenAt (before.length + 2)
  rw [isWord] at wordToken
  rw [isNext] at nextToken
  obtain ⟨clear, ends⟩ :=
    Scan.finish_before_plain plainTexts finished
  cases ends with
  | unquoted isUnquoted isFinal =>
      refine ⟨isUnquoted, clear, word, ?_, isArgument⟩
      have lengths := congrArg List.length isFinal
      rw [isAll] at isFinal lengths
      simp only [List.length_map, List.length_append,
        length_tokensBefore, Scan.plainTokens, List.length_cons]
        at lengths
      obtain ⟨token, rfl⟩ : ∃ token, later = [token] :=
        List.length_eq_one_iff.mp (by omega)
      rw [isFinal, List.append_assoc,
        List.getElem?_append_right (by rw [length_tokensBefore]),
        length_tokensBefore, Nat.sub_self] at wordToken
      rw [isAll, Option.some.inj wordToken]
  | escaped tokens start isFinal =>
      exfalso
      have lengths := congrArg List.length isFinal
      simp only [List.length_map, List.length_append, Scan.plainTokens,
        List.length_cons] at lengths
      rw [isFinal, List.getElem?_append_right (by omega),
        show before.length + 2 - tokens.length = 0 by omega] at nextToken
      have isStart := ShellToken.word.inj (Option.some.inj nextToken)
      have inWord : ⟨' ', true⟩ ∈ next := by
        rw [← isStart]
        simp
      have inField := quoted_mem_expandTilde bareShell inWord
      have blank : ' ' ∈ first.toList := by
        rw [← isFirst, wordText, String.toList_ofList]
        exact List.mem_map_of_mem inField
      exact
        (plainRest first List.mem_cons_self).not_mem rfl blank
  | comment isFinal =>
      exfalso
      have lengths := congrArg List.length isFinal
      rw [isAll] at isFinal lengths
      simp only [List.length_map, List.length_append,
        length_tokensBefore] at lengths
      obtain ⟨one, two, others, rfl⟩ :
          ∃ one two others, later = one :: two :: others := by
        obtain ⟨one, behind, rfl⟩ :=
          List.exists_cons_of_length_pos
            (show 0 < later.length by omega)
        rw [List.length_cons] at lengths
        obtain ⟨two, others, rfl⟩ :=
          List.exists_cons_of_length_pos
            (show 0 < behind.length by omega)
        exact ⟨one, two, others, rfl⟩
      rw [isFinal, List.getElem?_append_right
        (by rw [length_tokensBefore]), length_tokensBefore]
        at wordToken
      rw [isFinal, List.getElem?_append_right
        (by rw [length_tokensBefore]; omega), length_tokensBefore,
        show before.length + 2 - (before.length + 1) = 1 by omega]
        at nextToken
      rw [Nat.sub_self] at wordToken
      have isOne : one = .word word := Option.some.inj wordToken
      have isTwo : two = .word next := Option.some.inj nextToken
      -- the two words alone are longer than what was read
      have size :
          tokensSize (tokensBefore programWord before) +
              (word.length + next.length) ≤
            (scanOf programWord before argument).arrived := by
        have whole := (scanOf programWord before argument).size_le_arrived
        rw [isAll, isOne, isTwo, tokensSize_append] at whole
        simp only [tokensSize, List.map_cons, List.sum_cons,
          ShellToken.size] at whole ⊢
        omega
      have read := @arrived_scanOf programWord argument before
      have argumentLength := length_of_field isArgument
      have firstLength := length_of_field isFirst
      omega

theorem quotable_of_scanOf
    {word : ShellWord} (spaced : ' ' ∈ argument.toList)
    (unquoted :
      (scanOf programWord before argument).quoting = .unquoted)
    (clear : (scanOf programWord before argument).beyond = false)
    (isAll :
      (scanOf programWord before argument).all =
        tokensBefore programWord before ++ [.word word])
    (long : argument.toList.length ≤ word.length) :
    isDoubleQuotable argument.toList = true := by
  have wrapped :
      (wrapArgument argument).toList =
        '"' :: (argument.toList ++ ['"']) := by
    simp [wrapArgument, if_pos spaced]
  have opened :
      Scan.step
          ⟨tokensBefore programWord before, none, .unquoted, false⟩ '"' =
        ⟨tokensBefore programWord before, some (.word []), .double,
          false⟩ := by
    simp [Scan.step, Scan.readUnquoted, Scan.add, Scan.delimit,
      Scan.withQuoting]
  have size := (scanOf programWord before argument).size_le_arrived
  rw [isAll, tokensSize_append] at size
  rw [scanOf, wrapped, Scan.run_cons, opened] at unquoted clear size
  refine Scan.doubleQuotable_of_arrived rfl unquoted clear ?_
  have start :
      Scan.arrived
          ⟨tokensBefore programWord before, some (.word []), .double,
            false⟩ =
        tokensSize (tokensBefore programWord before) := by
    rw [Scan.arrived_of_quoting (@rfl _ Quoting.double) (by decide),
      Scan.all, tokensSize_append]
    rfl
  have alone : tokensSize [.word word] = word.length := by
    simp [tokensSize, ShellToken.size]
  omega

theorem plain_of_scanOf
    {word : ShellWord} (unspaced : ' ' ∉ argument.toList)
    (clear : (scanOf programWord before argument).beyond = false)
    (isAll :
      (scanOf programWord before argument).all =
        tokensBefore programWord before ++ [.word word])
    (isField : wordText (bareShell.expandTilde word) = argument) :
    Scan.IsPlainText argument.toList ∧
      argument.toList.head? ≠ some '~' := by
  have wrapped : wrapArgument argument = argument := by
    rw [wrapArgument, if_neg unspaced]
  rw [scanOf, wrapped] at clear isAll
  obtain ⟨notEmpty, noComment, ordinary⟩ :=
    Scan.plain_of_arrived clear isAll (length_of_field isField)
  refine ⟨⟨notEmpty, noComment, ordinary⟩, ?_⟩
  intro tilde
  have isWord : word = plainWord argument.toList := by
    rw [reads_plain ordinary notEmpty noComment] at isAll
    have same := List.append_cancel_left isAll
    simpa using same.symm
  cases characters : argument.toList with
  | nil => exact notEmpty characters
  | cons character others =>
      rw [characters] at tilde isWord
      obtain rfl := Option.some.inj tilde
      have slash :=
        @head_expandTilde bareShell rfl (fun _ => ⟨"/", rfl, rfl⟩) others
      rw [← isWord, isField, characters] at slash
      cases slash

end Between

/-! ## Patterns -/

/-- What the argument is to token recognition and tilde expansion. -/
def ReadsAsWord (argument : String) : Prop :=
  if ' ' ∈ argument.toList then
    isDoubleQuotable argument.toList = true
  else
    Scan.IsPlainText argument.toList ∧
      argument.toList.head? ≠ some '~'

def argumentWord (argument : String) : ShellWord :=
  if ' ' ∈ argument.toList then quotedWord argument.toList
  else plainWord argument.toList

theorem reads_wrapArgument
    {argument : String} (readsAs : ReadsAsWord argument) :
    Reads (wrapArgument argument).toList
      (.word (argumentWord argument)) := by
  unfold ReadsAsWord at readsAs
  unfold wrapArgument argumentWord
  by_cases spaced : ' ' ∈ argument.toList
  · rw [if_pos spaced] at readsAs ⊢
    rw [if_pos spaced]
    have shape :
        ("\"" ++ argument ++ "\"").toList =
          '"' :: argument.toList ++ ['"'] := by
      simp
    rw [shape]
    exact reads_double readsAs
  · rw [if_neg spaced] at readsAs ⊢
    rw [if_neg spaced]
    obtain ⟨⟨notEmpty, noComment, ordinary⟩, _⟩ := readsAs
    exact reads_plain ordinary notEmpty noComment

theorem staysOneWord_of_noGlob
    {argument : String} (readsAs : ReadsAsWord argument)
    (noGlob :
      ' ' ∉ argument.toList →
        isGlob (plainWord argument.toList) = false) :
    StaysOneWord argument := by
  unfold ReadsAsWord at readsAs
  unfold StaysOneWord
  by_cases spaced : ' ' ∈ argument.toList
  · rw [if_pos spaced] at readsAs ⊢
    exact readsAs
  · rw [if_neg spaced] at readsAs ⊢
    obtain ⟨⟨notEmpty, noComment, ordinary⟩, noTilde⟩ := readsAs
    refine ⟨?_, noComment, noTilde, ordinary, noGlob spaced⟩
    rintro rfl
    exact notEmpty rfl

/-- Two paths match every pattern. -/
def globShell : ShellEnvironment :=
  { bareShell with
    matching := fun word => if isGlob word then ["/a", "/b"] else [] }

theorem bareShell_isRemote : IsRemote bareShell where
  home := rfl
  homeHarmless := by decide
  login := by
    rintro name directory isRoot
    rw [← Option.some.inj isRoot]
    rfl
  matching := fun _ _ => Or.inl rfl

theorem globShell_isRemote : IsRemote globShell where
  home := rfl
  homeHarmless := by decide
  login := bareShell_isRemote.login
  matching := by
    intro word noGlob
    left
    simp [globShell, noGlob]

theorem fields_globShell_ne_nil (word : ShellWord) :
    globShell.fields word ≠ [] := by
  unfold ShellEnvironment.fields
  simp only
  split
  · split
    · exact List.cons_ne_nil _ _
    · rename_i found
      exact found
  · exact List.cons_ne_nil _ _

theorem fields_globShell_glob
    {word : ShellWord} (kept : globShell.expandTilde word = word)
    (glob : isGlob word = true) :
    globShell.fields word = ["/a", "/b"] := by
  have matching : globShell.matching word = ["/a", "/b"] := if_pos glob
  rw [ShellEnvironment.fields, kept]
  simp only [isPattern_of_isGlob glob, if_true, matching]

/-- As many fields as words, and one at least for each word. -/
theorem length_eq_one_of_flatMap
    {Item Value : Type} {items : List Item} {fields : Item → List Value}
    (notEmpty : ∀ item, fields item ≠ [])
    (count : (items.flatMap fields).length = items.length) :
    ∀ item ∈ items, (fields item).length = 1 := by
  have atLeast (others : List Item) :
      others.length ≤ (others.flatMap fields).length := by
    induction others with
    | nil => exact Nat.le_refl _
    | cons item rest inductionHypothesis =>
        have here := List.length_pos_iff.mpr (notEmpty item)
        rw [List.flatMap_cons, List.length_append, List.length_cons]
        omega
  induction items with
  | nil => exact fun item member => absurd member List.not_mem_nil
  | cons first rest inductionHypothesis =>
      have here := List.length_pos_iff.mpr (notEmpty first)
      have later := atLeast rest
      rw [List.flatMap_cons, List.length_append, List.length_cons]
        at count
      intro item member
      rcases List.mem_cons.mp member with rfl | inRest
      · omega
      · exact inductionHypothesis (by omega) item inRest

/-- The words of the line are those of the arguments. -/
theorem commands_of_readsAsWord
    {line : String} {text : List Char} {programWord : ShellWord}
    {arguments : List String}
    (isLine :
      line.toList = text ++ ' ' :: (workerArgStr arguments).toList)
    (readsProgram : Reads text (.word programWord))
    (notEmpty : arguments ≠ [])
    (readsAs : ∀ argument ∈ arguments, ReadsAsWord argument) :
    commands line =
      some [⟨programWord :: arguments.map argumentWord, none⟩] := by
  have joined :
      line.toList =
        List.intercalate [' ']
          (text ::
            arguments.map fun argument =>
              (wrapArgument argument).toList) := by
    rw [List.intercalate_cons_of_ne_nil (by simpa using notEmpty), isLine,
      workerArgStr, String.toList_ofList]
    exact List.append_cons _ _ _
  have reads :
      List.Forall₂ Reads
        (arguments.map fun argument => (wrapArgument argument).toList)
        ((arguments.map argumentWord).map ShellToken.word) := by
    rw [List.map_map, List.forall₂_map_left_iff,
      List.forall₂_map_right_iff, List.forall₂_same]
    intro argument member
    exact reads_wrapArgument (readsAs argument member)
  rw [commands, tokenize_joined joined readsProgram reads]
  exact
    commandsFrom_words SimpleCommand.empty
      (programWord :: arguments.map argumentWord)

/-- A pattern without quotes goes to the paths that match it. -/
theorem noGlob_of_starts
    {program : WorkerProgram} (named : program.IsPlain)
    {arguments : List String} (notEmpty : arguments ≠ [])
    (readsAs : ∀ argument ∈ arguments, ReadsAsWord argument)
    (starts :
      Starts globShell (program.runCmd (workerArgStr arguments))
        (program.location globShell) arguments) :
    ∀ argument ∈ arguments, ' ' ∉ argument.toList →
      isGlob (plainWord argument.toList) = false := by
  obtain ⟨text, ⟨programWord, readsProgram, isProgram⟩, isLine⟩ :=
    runCmd_shape globShell_isRemote named
  obtain ⟨command, isCommand, _, areArguments⟩ := starts
  have parsed :=
    commands_of_readsAsWord (isLine (workerArgStr arguments))
      readsProgram notEmpty readsAs
  rw [isCommand] at parsed
  obtain rfl := List.singleton_inj.mp (Option.some.inj parsed)
  rw [ShellEnvironment.arguments, List.flatMap_cons, isProgram]
    at areArguments
  have count := congrArg List.length (List.cons.inj areArguments).2
  intro argument member unspaced
  by_contra isGlobWord
  have glob : isGlob (plainWord argument.toList) = true := by
    simpa using isGlobWord
  have alone :=
    length_eq_one_of_flatMap fields_globShell_ne_nil
      (count.trans (List.length_map argumentWord).symm) _
      (List.mem_map_of_mem member)
  have own := readsAs argument member
  rw [ReadsAsWord, if_neg unspaced] at own
  have kept :
      globShell.expandTilde (plainWord argument.toList) =
        plainWord argument.toList := by
    rw [ShellEnvironment.expandTilde,
      tildeDirectory_plain globShell own.2]
  rw [argumentWord, if_neg unspaced, fields_globShell_glob kept glob]
    at alone
  cases alone

/-! ## The arguments of a transfer -/

/-- An argument that the CLI prints itself. -/
def IsOwnArgument (argument : String) : Prop :=
  Scan.IsPlainText argument.toList ∧ argument.toList.head? ≠ some '~'

theorem isOwnArgument_of_printed
    {value : String} (printed : IsPrinted value) :
    IsOwnArgument value := by
  refine ⟨isPlainText_of_printed printed, ?_⟩
  intro tilde
  have member := List.mem_of_mem_head? tilde
  have isPrinted := List.all_eq_true.mp printed.2 '~' member
  cases isPrinted

/-- The flags of the CLI. -/
def ownFlags : List String :=
  ["--peer-thumbprint", "--save-dir", "--checksum", "--resume",
    "--punch-ip", "--punch-port", "--stun-server", "--port"]

theorem isOwnArgument_of_flag
    {flag : String} (isFlag : flag ∈ ownFlags) : IsOwnArgument flag := by
  have ordinary :
      ∀ other ∈ ownFlags, other.toList.all isOrdinary = true ∧
        other.toList.head? = some '-' := by
    decide +kernel
  obtain ⟨allOrdinary, dash⟩ := ordinary flag isFlag
  refine ⟨⟨?_, ?_, allOrdinary⟩, ?_⟩
  · intro isNil
    rw [isNil] at dash
    cases dash
  · rw [dash]
    decide
  · rw [dash]
    decide

theorem readsAsWord_of_own
    {argument : String} (own : IsOwnArgument argument) :
    ReadsAsWord argument := by
  rw [ReadsAsWord, if_neg (own.1.not_mem rfl)]
  exact own

section Options

variable {options : TransferOptions}

theorem mem_later
    (printed : options.Printed) {argument : String}
    (member : argument ∈ options.later) : IsOwnArgument argument := by
  have isFlag (flag : String) (own : flag ∈ ownFlags)
      (same : argument = flag) : IsOwnArgument argument := by
    rw [same]
    exact isOwnArgument_of_flag own
  simp only [TransferOptions.later, List.mem_append] at member
  rcases member with (((checksum | resume) | candidate) | server) | port
  · split at checksum
    · exact isFlag _ (by decide) (List.mem_singleton.mp checksum)
    · cases checksum
  · split at resume
    · exact isFlag _ (by decide) (List.mem_singleton.mp resume)
    · cases resume
  · split at candidate
    · rename_i ip port isCandidate
      obtain ⟨ipPrinted, portPrinted⟩ :=
        printed.publicCandidate ip port isCandidate
      simp only [List.mem_cons, List.not_mem_nil, or_false] at candidate
      rcases candidate with flag | rfl | flag | rfl
      · exact isFlag _ (by decide) flag
      · exact isOwnArgument_of_printed ipPrinted
      · exact isFlag _ (by decide) flag
      · exact isOwnArgument_of_printed portPrinted
    · simp only [List.mem_cons, List.not_mem_nil, or_false] at candidate
      rcases candidate with flag | rfl
      · exact isFlag _ (by decide) flag
      · exact isOwnArgument_of_printed printed.localUdpPort
  · split at server
    · rename_i address isServer
      simp only [List.mem_cons, List.not_mem_nil, or_false] at server
      rcases server with flag | rfl
      · exact isFlag _ (by decide) flag
      · exact
          isOwnArgument_of_printed (printed.stunServer _ isServer)
    · cases server
  · split at port
    · rename_i number isPort
      simp only [List.mem_cons, List.not_mem_nil, or_false] at port
      rcases port with flag | rfl
      · exact isFlag _ (by decide) flag
      · exact isOwnArgument_of_printed (printed.quicPort _ isPort)
    · cases port

/-- A flag comes behind the directory. -/
theorem later_begins (options : TransferOptions) :
    ∃ flag rest, options.later = flag :: rest ∧ flag ∈ ownFlags := by
  unfold TransferOptions.later
  cases options.checksum with
  | true => exact ⟨"--checksum", _, rfl, by decide⟩
  | false =>
      cases options.resume with
      | true => exact ⟨"--resume", _, rfl, by decide⟩
      | false =>
          cases options.publicCandidate with
          | none => exact ⟨"--punch-port", _, rfl, by decide⟩
          | some candidate => exact ⟨"--punch-ip", _, rfl, by decide⟩

theorem long_of_flag
    {flag : String} (isFlag : flag ∈ ownFlags) :
    2 < flag.toList.length := by
  have long : ∀ other ∈ ownFlags, 2 < other.toList.length := by
    decide +kernel
  exact long flag isFlag

/-- All arguments but the directory are printed by the CLI. -/
theorem forall_workerArgs
    (printed : options.Printed) {Holds : String → Prop}
    (own : ∀ argument, IsOwnArgument argument → Holds argument)
    {remoteDir : String} (dir : Holds remoteDir) :
    ∀ argument ∈ options.workerArgs remoteDir, Holds argument := by
  rw [TransferOptions.workerArgs, List.forall_mem_append,
    List.forall_mem_cons, List.forall_mem_cons, List.forall_mem_cons,
    List.forall_mem_singleton]
  refine ⟨⟨?_, ?_, ?_, dir⟩, ?_⟩
  · exact own _ (isOwnArgument_of_flag (by decide))
  · exact own _ (isOwnArgument_of_printed printed.localThumbprint)
  · exact own _ (isOwnArgument_of_flag (by decide))
  · exact fun argument member => own argument (mem_later printed member)

/-- Where the worker gets the directory in a bare shell, it is a word. -/
theorem readsAsWord_of_starts
    {program : WorkerProgram} (named : program.IsPlain)
    (printed : options.Printed) {remoteDir : String}
    (starts :
      Starts bareShell
        (program.runCmd (workerArgStr (options.workerArgs remoteDir)))
        (program.location bareShell) (options.workerArgs remoteDir)) :
    ReadsAsWord remoteDir := by
  obtain ⟨first, rest, isLater, isFlag⟩ := later_begins options
  have isArgs :
      options.workerArgs remoteDir =
        ["--peer-thumbprint", options.localThumbprint, "--save-dir"] ++
          remoteDir :: first :: rest := by
    rw [TransferOptions.workerArgs, isLater]
    rfl
  have plainBefore :
      ∀ other ∈
          ["--peer-thumbprint", options.localThumbprint, "--save-dir"],
        Scan.IsPlainText other.toList := by
    rw [List.forall_mem_cons, List.forall_mem_cons,
      List.forall_mem_singleton]
    exact
      ⟨(isOwnArgument_of_flag (by decide)).1,
        isPlainText_of_printed printed.localThumbprint,
        (isOwnArgument_of_flag (by decide)).1⟩
  have plainRest :
      ∀ other ∈ first :: rest, Scan.IsPlainText other.toList := by
    rw [← isLater]
    exact fun other member => (mem_later printed member).1
  obtain ⟨text, ⟨programWord, readsProgram, _⟩, isLine⟩ :=
    runCmd_shape bareShell_isRemote named
  obtain ⟨command, isCommand, noOutput, areArguments⟩ := starts
  rw [isArgs] at isCommand areArguments
  obtain ⟨tokens, isTokens, isParsed⟩ :=
    Option.bind_eq_some_iff.mp isCommand
  obtain ⟨words, rfl, areWords⟩ :=
    tokens_of_commandsFrom isParsed noOutput
  rw [tokenize, isLine, run_between readsProgram plainBefore plainRest]
    at isTokens
  have areFields :
      (words.map fun word => wordText (bareShell.expandTilde word)) =
        program.location bareShell ::
          (["--peer-thumbprint", options.localThumbprint,
              "--save-dir"] ++
            remoteDir :: first :: rest) := by
    rw [← areArguments, ShellEnvironment.arguments, areWords,
      SimpleCommand.empty, List.nil_append]
    rw [List.map_eq_flatMap]
    congr 1
    funext word
    exact (fields_bareShell word).symm
  obtain ⟨unquoted, clear, word, isAll, isField⟩ :=
    scanOf_of_words plainRest (long_of_flag isFlag) isTokens areFields
  unfold ReadsAsWord
  by_cases spaced : ' ' ∈ remoteDir.toList
  · rw [if_pos spaced]
    exact
      quotable_of_scanOf spaced unquoted clear isAll
        (length_of_field isField)
  · rw [if_neg spaced]
    exact plain_of_scanOf spaced clear isAll isField

theorem workerArgs_ne_nil (options : TransferOptions) (remoteDir : String) :
    options.workerArgs remoteDir ≠ [] := by
  rw [TransferOptions.workerArgs]
  exact List.cons_ne_nil _ _

/-- On every remote the worker gets exactly its arguments, and nothing else
runs, if and only if each of them is an argument that `worker_arg_str` gets
right. -/
theorem worker_arguments_unchanged_exactly
    {program : WorkerProgram} (named : program.IsPlain)
    {options : TransferOptions} (printed : options.Printed)
    (remoteDir : String) :
    (∀ shell, IsRemote shell →
      Starts shell
        (program.runCmd (workerArgStr (options.workerArgs remoteDir)))
        (program.location shell) (options.workerArgs remoteDir)) ↔
      ∀ argument ∈ options.workerArgs remoteDir,
        StaysOneWord argument := by
  have notEmpty := workerArgs_ne_nil options remoteDir
  constructor
  · intro starts
    have dirReads :=
      readsAsWord_of_starts named printed
        (starts bareShell bareShell_isRemote)
    have readsAs :=
      forall_workerArgs printed (fun _ => readsAsWord_of_own) dirReads
    intro argument member
    refine staysOneWord_of_noGlob (readsAs argument member) ?_
    exact
      noGlob_of_starts named notEmpty readsAs
        (starts globShell globShell_isRemote) argument member
  · intro stay shell remote
    exact starts_of_staysOneWord remote named notEmpty stay

end Options

theorem plainOptions_printed : plainOptions.Printed where
  localThumbprint := by decide +kernel
  publicCandidate := nofun
  localUdpPort := by decide +kernel
  stunServer := nofun
  quicPort := nofun

/-- A directory with a space, an apostrophe and an asterisk. -/
theorem worker_arguments_unchanged_quoted :
    Starts bareShell
      ((WorkerProgram.cached plainWorker).runCmd
        (workerArgStr (plainOptions.workerArgs "it's *here*")))
      ((WorkerProgram.cached plainWorker).location bareShell)
      (plainOptions.workerArgs "it's *here*") :=
  (worker_arguments_unchanged_exactly (by decide +kernel)
    plainOptions_printed "it's *here*").mpr (by decide +kernel) bareShell
    bareShell_isRemote

/-- What stands behind `&&` in a directory without a space is a command of its
own, with the options of the worker. -/
theorem directory_runs_a_command :
    ¬ Starts plainRemote
        ((WorkerProgram.cached plainWorker).runCmd
          (workerArgStr (plainOptions.workerArgs "docs&&id")))
        ((WorkerProgram.cached plainWorker).location plainRemote)
        (plainOptions.workerArgs "docs&&id") ∧
      ((commands
          (expandHome plainRemote
            ((WorkerProgram.cached plainWorker).runCmd
              (workerArgStr (plainOptions.workerArgs "docs&&id"))))).map
        fun found => found.map plainRemote.arguments) =
        some
          [["/home/u/.cache/quiczilla/bundle-0a1b/worker-v0.5.0",
              "--peer-thumbprint", plainOptions.localThumbprint,
              "--save-dir", "docs"],
            ["id", "--checksum", "--punch-port", "50000"]] := by
  have parsed :
      ((commands
          (expandHome plainRemote
            ((WorkerProgram.cached plainWorker).runCmd
              (workerArgStr (plainOptions.workerArgs "docs&&id"))))).map
        fun found => found.map plainRemote.arguments) =
        some
          [["/home/u/.cache/quiczilla/bundle-0a1b/worker-v0.5.0",
              "--peer-thumbprint", plainOptions.localThumbprint,
              "--save-dir", "docs"],
            ["id", "--checksum", "--punch-port", "50000"]] := by
    decide +kernel
  refine ⟨?_, parsed⟩
  rintro ⟨command, isCommand, _⟩
  rw [isCommand] at parsed
  have lengths := congrArg List.length (Option.some.inj parsed)
  cases lengths

end Quiczilla
