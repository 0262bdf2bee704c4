import Mathlib.Data.List.TakeWhile
import Quiczilla.Foundation.Shell
import Quiczilla.ReceivePaths
import Quiczilla.WorkerArguments

/-!
# Where the two transports put a file

The SSH fallback quotes the directory and the file name for the remote shell;
the worker gets the directory as an argument of its command line, which is
joined from arguments that are wrapped in double quotes when they contain a
space.  Both commands are read by the login shell in the home directory.
-/

namespace Quiczilla

open Foundation

/-! ## The SSH fallback -/

/-- `replace('\'', r#"'"'"'"#)`. -/
def replaceQuotes (value : List Char) : List Char :=
  value.flatMap fun character =>
    if character = '\'' then ['\'', '"', '\'', '"', '\'']
    else [character]

def shellQuote (value : String) : String :=
  String.ofList ('\'' :: replaceQuotes value.toList ++ ['\''])

def isSeparator (character : Char) : Bool :=
  character == '/' || character == '\\'

/-- `trim_end_matches(['/', '\\'])`. -/
def trimSeparators (text : String) : String :=
  String.ofList (text.toList.reverse.dropWhile isSeparator).reverse

def fallbackPath (remoteDir fileName : String) : String :=
  trimSeparators remoteDir ++ "/" ++ fileName

/-- The remote command of `run_ssh_fallback`. -/
def fallbackCommand (remoteDir fileName : String) : String :=
  "mkdir -p -- " ++ shellQuote remoteDir ++ " && cat > " ++
    shellQuote (fallbackPath remoteDir fileName)

/-- The file that `mkdir -p -- directory && cat > file` writes. -/
def catTarget
    (shell : ShellEnvironment) (line : String) : Option String :=
  match commands line with
  | some [first, second] =>
      match shell.arguments first, second.output with
      | [mkdir, parents, noOptions, directory], some target =>
          if first.output = none ∧
              [mkdir, parents, noOptions] = ["mkdir", "-p", "--"] ∧
              shell.arguments second = ["cat"] ∧
              -- there is no directory without a name
              directory ≠ "" then
            some (shell.redirection target)
          else none
      | _, _ => none
  | _ => none

/-- A path of the remote, seen from the home directory. -/
def fromHome
    (shell : ShellEnvironment) (path : UnixPath) : UnixPath :=
  join (components shell.home) path

def fallbackDestination
    (shell : ShellEnvironment) (remoteDir fileName : String) :
    Option UnixPath :=
  (catTarget shell (fallbackCommand remoteDir fileName)).map fun target =>
    fromHome shell (components target)

/-! ## The worker -/

/-- What the arguments of the worker are made of, besides the directory.
Addresses and ports are printed already. -/
structure TransferOptions where
  localThumbprint : String
  checksum : Bool
  resume : Bool
  publicCandidate : Option (String × String)
  localUdpPort : String
  stunServer : Option String
  quicPort : Option String
  deriving DecidableEq, Repr

/-- The `worker_args` behind the directory. -/
def TransferOptions.later (options : TransferOptions) : List String :=
  (if options.checksum then ["--checksum"] else []) ++
    (if options.resume then ["--resume"] else []) ++
    (match options.publicCandidate with
      | some (ip, port) => ["--punch-ip", ip, "--punch-port", port]
      | none => ["--punch-port", options.localUdpPort]) ++
    (match options.stunServer with
      | some server => ["--stun-server", server]
      | none => []) ++
    (match options.quicPort with
      | some port => ["--port", port]
      | none => [])

def TransferOptions.workerArgs
    (options : TransferOptions) (remotePath : String) : List String :=
  ["--peer-thumbprint", options.localThumbprint, "--save-dir",
      remotePath] ++
    options.later

/-- An argument of `worker_arg_str`. -/
def wrapArgument (argument : String) : String :=
  if ' ' ∈ argument.toList then "\"" ++ argument ++ "\"" else argument

def workerArgStr (arguments : List String) : String :=
  String.ofList
    (List.intercalate [' ']
      (arguments.map fun argument => (wrapArgument argument).toList))

/-- The cached worker that `run_cached_worker` starts. -/
structure CachedWorker where
  bundleDir : String
  binaryName : String
  deriving DecidableEq, Repr

def CachedWorker.path (worker : CachedWorker) : String :=
  "~/.cache/quiczilla/" ++ worker.bundleDir ++ "/" ++ worker.binaryName

/-- The digits, dots and words of a bundle and a version. -/
def isNameCharacter (character : Char) : Bool :=
  character.isAlphanum || character == '-' || character == '.'

def CachedWorker.IsPlain (worker : CachedWorker) : Prop :=
  worker.bundleDir.toList.all isNameCharacter = true ∧
    worker.binaryName.toList.all isNameCharacter = true

instance (worker : CachedWorker) : Decidable worker.IsPlain :=
  inferInstanceAs (Decidable (_ ∧ _))

def CachedWorker.command
    (worker : CachedWorker) (arguments : List String) : String :=
  worker.path ++ " " ++ workerArgStr arguments

/-- Where a worker that is started with the command line stores a file of the
offered name. -/
def workerDestination {Address : Type}
    (parseAddress : String → Option Address) (shell : ShellEnvironment)
    (line offeredName : String) : Option UnixPath :=
  match commands line with
  | some [command] =>
      match command.output, WorkerSettings.fromArgs parseAddress
          shell.home (shell.arguments command) with
      | none, .ok settings =>
          some
            (fromHome shell
              (destinationPath settings.saveDir offeredName))
      | _, _ => none
  | _ => none

/-! ## What the shell keeps -/

/-- An argument that reaches the worker as it is: inside double quotes when it
contains a space, and otherwise as an ordinary word that is no tilde-prefix and
matches no other path. -/
def KeptByShell (shell : ShellEnvironment) (argument : String) : Prop :=
  if ' ' ∈ argument.toList then
    isDoubleQuotable argument.toList = true
  else
    argument ≠ "" ∧ argument.toList.head? ≠ some '#' ∧
      argument.toList.all isOrdinary = true ∧
        shell.tildeDirectory (plainWord argument.toList) = none ∧
          (isPattern (plainWord argument.toList) = true →
            shell.matching (plainWord argument.toList) = [] ∨
              shell.matching (plainWord argument.toList) = [argument])

instance (shell : ShellEnvironment) (argument : String) :
    Decidable (KeptByShell shell argument) :=
  inferInstanceAs
    (Decidable (ite _ (_ = true) (_ ∧ _ ∧ _ ∧ _ ∧ (_ → _))))

/-- A text that the shell reads as a word with one field. -/
def ReadsField
    (shell : ShellEnvironment) (text : List Char) (field : String) :
    Prop :=
  ∃ word, Reads text (.word word) ∧ shell.fields word = [field]

section Reading

variable {shell : ShellEnvironment}

theorem readsField_of_ordinary
    {text : List Char} (notEmpty : text ≠ [])
    (noComment : text.head? ≠ some '#')
    (ordinary : text.all isOrdinary = true)
    (noTilde : shell.tildeDirectory (plainWord text) = none)
    (noMatch :
      isPattern (plainWord text) = true →
        shell.matching (plainWord text) = [] ∨
          shell.matching (plainWord text) = [String.ofList text]) :
    ReadsField shell text (String.ofList text) := by
  exact
    ⟨plainWord text, reads_plain ordinary notEmpty noComment,
      fields_plain shell noTilde noMatch⟩

theorem readsField_wrapped
    {argument : String} (kept : KeptByShell shell argument) :
    ReadsField shell (wrapArgument argument).toList argument := by
  have spelled : String.ofList argument.toList = argument :=
    String.ofList_toList
  unfold KeptByShell at kept
  unfold wrapArgument
  split at kept
  · rename_i spaced
    rw [if_pos spaced]
    refine ⟨quotedWord argument.toList, ?_, ?_⟩
    · have shape :
          ("\"" ++ argument ++ "\"").toList =
            '"' :: argument.toList ++ ['"'] := by
        simp
      rw [shape]
      exact reads_double kept
    · rw [fields_quoted, spelled]
  · rename_i unspaced
    obtain ⟨notEmpty, noComment, ordinary, noTilde, noMatch⟩ := kept
    rw [if_neg unspaced]
    have notNil : argument.toList ≠ [] := by
      intro isNil
      rw [isNil] at spelled
      exact notEmpty spelled.symm
    have reads :=
      readsField_of_ordinary notNil noComment ordinary noTilde (by
        rw [spelled]
        exact noMatch)
    rw [spelled] at reads
    exact reads

/-- The words of texts that read as one field each. -/
theorem words_of_fields
    {texts : List (List Char)} {fields : List String}
    (reads : List.Forall₂ (ReadsField shell) texts fields) :
    ∃ words : List ShellWord,
      List.Forall₂ Reads texts (words.map ShellToken.word) ∧
        words.flatMap shell.fields = fields := by
  induction reads with
  | nil => exact ⟨[], List.Forall₂.nil, rfl⟩
  | cons first _ inductionHypothesis =>
      obtain ⟨word, readsWord, isField⟩ := first
      obtain ⟨words, readsWords, areFields⟩ := inductionHypothesis
      refine
        ⟨word :: words, List.Forall₂.cons readsWord readsWords, ?_⟩
      rw [List.flatMap_cons, isField, areFields]
      rfl

theorem commandsFrom_words
    (current : SimpleCommand) (words : List ShellWord) :
    commandsFrom current (words.map ShellToken.word) =
      some [{ current with words := current.words ++ words }] := by
  induction words generalizing current with
  | nil => simp [commandsFrom]
  | cons word rest inductionHypothesis =>
      rw [List.map_cons, commandsFrom, inductionHypothesis]
      simp

/-- A line of such texts is one simple command. -/
theorem arguments_of_fields
    {line : String} {text : List Char} {texts : List (List Char)}
    {field : String} {fields : List String}
    (isLine : line.toList = List.intercalate [' '] (text :: texts))
    (first : ReadsField shell text field)
    (rest : List.Forall₂ (ReadsField shell) texts fields) :
    ∃ command, commands line = some [command] ∧
      command.output = none ∧
        shell.arguments command = field :: fields := by
  obtain ⟨word, readsWord, isField⟩ := first
  obtain ⟨words, readsWords, areFields⟩ := words_of_fields rest
  refine ⟨⟨word :: words, none⟩, ?_, rfl, ?_⟩
  · rw [commands, tokenize_joined isLine readsWord readsWords]
    exact commandsFrom_words SimpleCommand.empty (word :: words)
  · rw [ShellEnvironment.arguments, List.flatMap_cons, isField,
      areFields]
    rfl

/-- Inside single quotes, a quote is spelled as a closing quote, a quote in
double quotes and an opening quote. -/
theorem run_replaceQuotes
    (tokens : List ShellToken) (word : ShellWord) (text : List Char) :
    Scan.run ⟨tokens, some (.word word), .single, false⟩
        (replaceQuotes text) =
      ⟨tokens, some (.word (word ++ quotedWord text)), .single,
        false⟩ := by
  induction text generalizing word with
  | nil =>
      rw [quotedWord, List.map_nil, List.append_nil]
      rfl
  | cons character rest inductionHypothesis =>
      have first :
          Scan.run ⟨tokens, some (.word word), .single, false⟩
              (if character = '\'' then ['\'', '"', '\'', '"', '\'']
                else [character]) =
            ⟨tokens, some (.word (word ++ [⟨character, true⟩])),
              .single, false⟩ := by
        by_cases isQuote : character = '\''
        · rw [if_pos isQuote, isQuote]
          simp [Scan.step, Scan.readUnquoted, Scan.readDouble,
            Scan.withQuoting]
        · rw [if_neg isQuote]
          exact
            run_single tokens word (by simpa using Ne.symm isQuote)
      rw [replaceQuotes, List.flatMap_cons, Scan.run_append, first]
      refine (inductionHypothesis _).trans ?_
      rw [List.append_assoc]
      rfl

/-- What `shell_quote` gives is one word, all of it quoted. -/
theorem reads_shellQuote (value : String) :
    Reads (shellQuote value).toList
      (.word (quotedWord value.toList)) := by
  intro tokens
  have opened :
      Scan.step ⟨tokens, none, .unquoted, false⟩ '\'' =
        ⟨tokens, some (.word []), .single, false⟩ := by
    simp [Scan.step, Scan.readUnquoted, Scan.add, Scan.delimit,
      Scan.withQuoting]
  rw [shellQuote, String.toList_ofList, List.cons_append,
    Scan.run_cons, opened, Scan.run_append, run_replaceQuotes]
  rfl

/-- `shell_quote` of each of the values, joined with single spaces. -/
def quotedLine (values : List String) : String :=
  String.ofList
    (List.intercalate [' ']
      (values.map fun value => (shellQuote value).toList))

theorem readsField_shellQuote (value : String) :
    ReadsField shell (shellQuote value).toList value := by
  refine ⟨_, reads_shellQuote value, ?_⟩
  rw [fields_quoted, String.ofList_toList]

/-- Values that are quoted are the words of the line, each of them quoted as a
whole, and the arguments of its only command. -/
theorem quoted_line_is_its_values
    (shell : ShellEnvironment) (values : List String) :
    tokenize (quotedLine values) =
        some
          (values.map fun value => .word (quotedWord value.toList)) ∧
      ∃ command,
        commands (quotedLine values) = some [command] ∧
          command.output = none ∧
            shell.arguments command = values := by
  cases values with
  | nil => exact ⟨rfl, SimpleCommand.empty, rfl, rfl, rfl⟩
  | cons value rest =>
      have line :
          (quotedLine (value :: rest)).toList =
            List.intercalate [' ']
              ((shellQuote value).toList ::
                rest.map fun other => (shellQuote other).toList) :=
        String.toList_ofList
      constructor
      · refine tokenize_joined line (reads_shellQuote value) ?_
        rw [List.forall₂_map_left_iff, List.forall₂_map_right_iff,
          List.forall₂_same]
        intro other _
        exact reads_shellQuote other
      · refine arguments_of_fields line (readsField_shellQuote value) ?_
        rw [List.forall₂_map_left_iff, List.forall₂_same]
        intro other _
        exact readsField_shellQuote other

/-- The remote command of the fallback writes the path that it names, unless
the directory has no name. -/
theorem catTarget_fallbackCommand
    {remoteDir : String} (notEmpty : remoteDir ≠ "")
    (fileName : String) :
    catTarget shell (fallbackCommand remoteDir fileName) =
      some (fallbackPath remoteDir fileName) := by
  have line :
      (fallbackCommand remoteDir fileName).toList =
        List.intercalate [' ']
          ["mkdir".toList, "-p".toList, "--".toList,
            (shellQuote remoteDir).toList, ['&', '&'], "cat".toList,
            ['>'],
            (shellQuote (fallbackPath remoteDir fileName)).toList] := by
    simp [fallbackCommand, List.intercalate]
  have mkdir : Reads "mkdir".toList (.word (plainWord "mkdir".toList)) :=
    reads_plain (by decide) (by decide) (by decide)
  have parents : Reads "-p".toList (.word (plainWord "-p".toList)) :=
    reads_plain (by decide) (by decide) (by decide)
  have noOptions : Reads "--".toList (.word (plainWord "--".toList)) :=
    reads_plain (by decide) (by decide) (by decide)
  have cat : Reads "cat".toList (.word (plainWord "cat".toList)) :=
    reads_plain (by decide) (by decide) (by decide)
  have tokens :=
    tokenize_joined line mkdir
      (.cons parents
        (.cons noOptions
          (.cons (reads_shellQuote remoteDir)
            (.cons reads_and
              (.cons cat
                (.cons reads_output
                  (.cons (reads_shellQuote _) .nil)))))))
  have plainField {text : List Char}
      (noTilde : text.head? ≠ some '~')
      (noPattern : isPattern (plainWord text) = false) :
      shell.fields (plainWord text) = [String.ofList text] := by
    refine
      fields_plain shell (tildeDirectory_plain shell noTilde) ?_
    intro pattern
    rw [noPattern] at pattern
    cases pattern
  have first :
      shell.arguments
          ⟨[plainWord "mkdir".toList, plainWord "-p".toList,
              plainWord "--".toList, quotedWord remoteDir.toList],
            none⟩ =
        ["mkdir", "-p", "--", remoteDir] := by
    simp only [ShellEnvironment.arguments, List.flatMap_cons,
      List.flatMap_nil, fields_quoted, String.ofList_toList,
      List.append_nil]
    rw [plainField (by decide) (by decide), plainField (by decide) (by decide),
      plainField (by decide) (by decide)]
    rfl
  have second :
      shell.arguments
          ⟨[plainWord "cat".toList],
            some
              (quotedWord
                (fallbackPath remoteDir fileName).toList)⟩ =
        ["cat"] := by
    simp only [ShellEnvironment.arguments, List.flatMap_cons,
      List.flatMap_nil, List.append_nil]
    rw [plainField (by decide) (by decide)]
    rfl
  have parsed :
      commands (fallbackCommand remoteDir fileName) =
        some
          [⟨[plainWord "mkdir".toList, plainWord "-p".toList,
              plainWord "--".toList, quotedWord remoteDir.toList],
              none⟩,
            ⟨[plainWord "cat".toList],
              some
                (quotedWord
                  (fallbackPath remoteDir fileName).toList)⟩] := by
    rw [commands, tokens]
    rfl
  simp only [catTarget, parsed, first, second]
  rw [if_pos ⟨trivial, trivial, trivial, notEmpty⟩, redirection_quoted,
    String.ofList_toList]

theorem ordinary_of_nameCharacter
    {character : Char} (isName : isNameCharacter character = true) :
    isOrdinary character = true ∧
      ['*', '?', '['].contains character = false := by
  have special
      (characters : List Char)
      (noName : characters.all (fun other => !isNameCharacter other) = true) :
      characters.contains character = false := by
    by_contra member
    have isMember : character ∈ characters := by
      simpa using member
    have refused := List.all_eq_true.mp noName character isMember
    rw [isName] at refused
    cases refused
  refine ⟨?_, special _ (by decide)⟩
  rw [isOrdinary, special _ (by decide)]
  rfl

/-- A text without special characters, patterns included. -/
def IsHarmless (text : List Char) : Prop :=
  text.all isOrdinary = true ∧ isPattern (plainWord text) = false

instance (text : List Char) : Decidable (IsHarmless text) :=
  inferInstanceAs (Decidable (_ ∧ _))

theorem IsHarmless.append
    {first second : List Char} (harmlessFirst : IsHarmless first)
    (harmlessSecond : IsHarmless second) :
    IsHarmless (first ++ second) := by
  constructor
  · rw [List.all_append, harmlessFirst.1, harmlessSecond.1]
    rfl
  · have both := congrArg₂ Bool.or harmlessFirst.2 harmlessSecond.2
    simp only [isPattern, plainWord, List.map_append, List.any_append]
      at both ⊢
    exact both

theorem isHarmless_of_name
    {text : List Char} (isName : text.all isNameCharacter = true) :
    IsHarmless text := by
  rw [List.all_eq_true] at isName
  constructor
  · rw [List.all_eq_true]
    intro character member
    exact (ordinary_of_nameCharacter (isName character member)).1
  · simp only [isPattern, plainWord, List.any_map, List.any_eq_false]
    intro character member
    simp only [Function.comp_apply,
      (ordinary_of_nameCharacter (isName character member)).2,
      Bool.and_false, Bool.false_eq_true, not_false_eq_true]

theorem readsField_home
    {text : List Char} (harmless : IsHarmless text) :
    ReadsField shell ('~' :: '/' :: text)
      (shell.home ++ String.ofList ('/' :: text)) := by
  refine
    ⟨plainWord ('~' :: '/' :: text),
      reads_plain ?_ (List.cons_ne_nil _ _) (by simp),
      fields_home shell harmless.2⟩
  have tilde : isOrdinary '~' = true := by decide
  have slash : isOrdinary '/' = true := by decide
  rw [List.all_cons, List.all_cons, harmless.1, tilde, slash]
  rfl

/-- The path of the cached worker is below the home directory. -/
theorem readsField_worker
    {worker : CachedWorker} (named : worker.IsPlain) :
    ∃ text,
      worker.path.toList = '~' :: '/' :: text ∧
        ReadsField shell worker.path.toList
          (shell.home ++ String.ofList ('/' :: text)) := by
  have harmless :
      IsHarmless
        (".cache/quiczilla/".toList ++ worker.bundleDir.toList ++
          "/".toList ++ worker.binaryName.toList) :=
    (((by decide +kernel : IsHarmless ".cache/quiczilla/".toList).append
        (isHarmless_of_name named.1)).append
      (by decide +kernel : IsHarmless "/".toList)).append
        (isHarmless_of_name named.2)
  have tilde :
      "~/.cache/quiczilla/".toList =
        '~' :: '/' :: ".cache/quiczilla/".toList := by
    decide +kernel
  have joined (first second third fourth : String) :
      (first ++ second ++ third ++ fourth).toList =
        first.toList ++ second.toList ++ third.toList ++
          fourth.toList := by
    simp only [String.toList_append]
  have path :
      worker.path.toList =
        '~' :: '/' ::
          (".cache/quiczilla/".toList ++ worker.bundleDir.toList ++
            "/".toList ++ worker.binaryName.toList) := by
    refine (joined "~/.cache/quiczilla/" _ "/" _).trans ?_
    simp only [tilde, List.cons_append]
  refine ⟨_, path, ?_⟩
  rw [path]
  exact readsField_home harmless

/-- Behind a text that reads as one field, the shell passes on the arguments
that it keeps. -/
theorem arguments_behind
    {line program : String} {text : List Char} {arguments : List String}
    (isLine :
      line.toList = text ++ ' ' :: (workerArgStr arguments).toList)
    (readsProgram : ReadsField shell text program)
    (notEmpty : arguments ≠ [])
    (kept : ∀ argument ∈ arguments, KeptByShell shell argument) :
    ∃ command, commands line = some [command] ∧
      command.output = none ∧
        shell.arguments command = program :: arguments := by
  have reads :
      List.Forall₂ (ReadsField shell)
        (arguments.map fun argument => (wrapArgument argument).toList)
        arguments := by
    rw [List.forall₂_map_left_iff, List.forall₂_same]
    intro argument member
    exact readsField_wrapped (kept argument member)
  refine arguments_of_fields ?_ readsProgram reads
  rw [List.intercalate_cons_of_ne_nil (by simpa using notEmpty), isLine,
    workerArgStr, String.toList_ofList]
  exact List.append_cons _ _ _

/-- The shell starts the cached worker with the arguments that it keeps. -/
theorem worker_arguments
    {worker : CachedWorker} {arguments : List String}
    (named : worker.IsPlain) (notEmpty : arguments ≠ [])
    (kept : ∀ argument ∈ arguments, KeptByShell shell argument) :
    ∃ command program,
      commands (worker.command arguments) = some [command] ∧
        command.output = none ∧
          shell.arguments command = program :: arguments := by
  obtain ⟨_, _, readsProgram⟩ := @readsField_worker shell worker named
  have line :
      (worker.command arguments).toList =
        worker.path.toList ++
          ' ' :: (workerArgStr arguments).toList := by
    simp [CachedWorker.command]
  obtain ⟨command, isCommand, noOutput, areArguments⟩ :=
    arguments_behind line readsProgram notEmpty kept
  exact ⟨command, _, isCommand, noOutput, areArguments⟩

end Reading

/-! ## The scan of the worker -/

section Scanning

variable {Address : Type} {parseAddress : String → Option Address}

/-- Arguments that the scan passes without touching the directory. -/
def PassesSaveDir
    (parseAddress : String → Option Address) (arguments : List String) :
    Prop :=
  ∀ settings rest, ∃ after : WorkerSettings Address,
    after.saveDir = settings.saveDir ∧
      (WorkerSettings.scanner parseAddress).scan settings
          (arguments ++ rest) =
        (WorkerSettings.scanner parseAddress).scan after rest

theorem PassesSaveDir.append
    {first second : List String}
    (passesFirst : PassesSaveDir parseAddress first)
    (passesSecond : PassesSaveDir parseAddress second) :
    PassesSaveDir parseAddress (first ++ second) := by
  exact PassesOver.append passesFirst passesSecond

theorem passesSaveDir_nil : PassesSaveDir parseAddress [] := by
  exact passesOver_nil

theorem passesSaveDir_flag
    {argument : String} (option : WorkerOption)
    (known : workerOptions.lookup argument = some option)
    (flag : option.takesValue = false) :
    PassesSaveDir parseAddress [argument] := by
  apply passesOver_flag option known flag
  intro settings
  exact WorkerSettings.set_saveDir option

theorem passesSaveDir_value
    {argument value : String} (option : WorkerOption)
    (known : workerOptions.lookup argument = some option)
    (takes : option.takesValue = true)
    (other : option ≠ .saveDir)
    (assigns :
      ∀ settings : WorkerSettings Address, ∃ assigned,
        settings.assign parseAddress option value = .ok assigned) :
    PassesSaveDir parseAddress [argument, value] := by
  apply passesOver_value option known takes
  intro settings
  obtain ⟨assigned, assignsTo⟩ := assigns settings
  exact
    ⟨assigned, assignsTo,
      WorkerSettings.assign_saveDir other assignsTo⟩

/-- The arguments behind the directory leave it alone, and none of them is an
error as long as the address of the STUN server can be read back. -/
theorem passesSaveDir_later
    {options : TransferOptions}
    (readable :
      ∀ server, options.stunServer = some server →
        (parseAddress server).isSome = true) :
    PassesSaveDir parseAddress options.later := by
  unfold TransferOptions.later
  refine
    ((((?_ : PassesSaveDir parseAddress _).append ?_).append ?_).append
      ?_).append ?_
  · split
    · exact passesSaveDir_flag .verify rfl rfl
    · exact passesSaveDir_nil
  · split
    · exact passesSaveDir_flag .resume rfl rfl
    · exact passesSaveDir_nil
  · have punchPort (port : String) :
        PassesSaveDir parseAddress ["--punch-port", port] :=
      passesSaveDir_value .punchPort rfl rfl (by decide)
        fun settings => ⟨_, rfl⟩
    split
    · rename_i ip port _
      have punchIp :
          PassesSaveDir parseAddress ["--punch-ip", ip] :=
        passesSaveDir_value .punchIp rfl rfl (by decide)
          fun settings => ⟨_, rfl⟩
      exact punchIp.append (punchPort port)
    · exact punchPort _
  · split
    · rename_i server isServer
      refine
        passesSaveDir_value .stunServer rfl rfl (by decide) ?_
      intro settings
      obtain ⟨address, isAddress⟩ :=
        Option.isSome_iff_exists.mp (readable server isServer)
      refine ⟨{ settings with stunServer := some address }, ?_⟩
      simp only [WorkerSettings.assign, isAddress]
    · exact passesSaveDir_nil
  · split
    · exact
        passesSaveDir_value .port rfl rfl (by decide)
          fun settings => ⟨_, rfl⟩
    · exact passesSaveDir_nil

/-- The worker takes the directory from its arguments, without control
characters at its ends. -/
theorem fromArgs_workerArgs
    {options : TransferOptions}
    (readable :
      ∀ server, options.stunServer = some server →
        (parseAddress server).isSome = true)
    (currentDir program remotePath : String) :
    ∃ settings,
      WorkerSettings.fromArgs parseAddress currentDir
          (program :: options.workerArgs remotePath) = .ok settings ∧
        settings.saveDir = trimControls remotePath := by
  have thumbprint
      (settings : WorkerSettings Address) (rest : List String) :
      (WorkerSettings.scanner parseAddress).scan settings
          ("--peer-thumbprint" :: options.localThumbprint :: rest) =
        (WorkerSettings.scanner parseAddress).scan
          { settings with expectedThumbprint := options.localThumbprint }
          rest :=
    Scanner.scan_value rfl rfl rfl rest
  have saveDir
      (settings : WorkerSettings Address) (rest : List String) :
      (WorkerSettings.scanner parseAddress).scan settings
          ("--save-dir" :: remotePath :: rest) =
        (WorkerSettings.scanner parseAddress).scan
          { settings with saveDir := trimControls remotePath } rest :=
    Scanner.scan_value rfl rfl rfl rest
  obtain ⟨after, sameDir, scanned⟩ :=
    passesSaveDir_later readable
      { WorkerSettings.initial currentDir with
        expectedThumbprint := options.localThumbprint
        saveDir := trimControls remotePath }
      []
  refine ⟨after, ?_, sameDir⟩
  rw [WorkerSettings.fromArgs, List.tail_cons,
    TransferOptions.workerArgs, List.cons_append, List.cons_append,
    List.cons_append, List.cons_append, List.nil_append, thumbprint,
    saveDir]
  rw [List.append_nil] at scanned
  exact scanned

end Scanning

/-! ## The paths -/

/-- The directory ends in separators of which none is a backslash. -/
def EndsInSlashes (text : String) : Prop :=
  '\\' ∉ text.toList.reverse.takeWhile isSeparator

instance (text : String) : Decidable (EndsInSlashes text) :=
  inferInstanceAs (Decidable (¬ _))

theorem trimSeparators_spec
    {text : String} (ends : EndsInSlashes text) :
    ∃ count, text.toList =
      (trimSeparators text).toList ++ List.replicate count '/' := by
  have slashes :
      ∀ character ∈ text.toList.reverse.takeWhile isSeparator,
        character = '/' := by
    intro character member
    have separator : isSeparator character = true :=
      List.mem_takeWhile_imp member
    rw [isSeparator, Bool.or_eq_true, beq_iff_eq, beq_iff_eq] at separator
    rcases separator with slash | backslash
    · exact slash
    · rw [backslash] at member
      exact absurd member ends
  have tail := List.eq_replicate_of_mem slashes
  refine
    ⟨(text.toList.reverse.takeWhile isSeparator).length, ?_⟩
  rw [trimSeparators, String.toList_ofList, ← List.reverse_replicate,
    ← tail, ← List.reverse_append, List.takeWhile_append_dropWhile,
    List.reverse_reverse]

/-- The path that the fallback names is the file in the directory. -/
theorem components_fallbackPath
    {remoteDir fileName : String} (notEmpty : remoteDir ≠ "")
    (ends : EndsInSlashes remoteDir) (normal : IsNormalName fileName) :
    components (fallbackPath remoteDir fileName) =
      components remoteDir ++ [.normal fileName] := by
  obtain ⟨count, isDir⟩ := trimSeparators_spec ends
  have spelledDir :
      remoteDir =
        String.ofList
          ((trimSeparators remoteDir).toList ++
            List.replicate count '/') := by
    rw [← isDir, String.ofList_toList]
  have isName :
      (segments fileName.toList).filterMap Component.ofSegment =
        [.normal fileName] :=
    filterMap_segments_normal normal
  have isPath :
      fallbackPath remoteDir fileName =
        String.ofList
          ((trimSeparators remoteDir).toList ++
            '/' :: fileName.toList) := by
    rw [← String.toList_inj, String.toList_ofList, fallbackPath]
    simp
  rw [isPath]
  by_cases root : (trimSeparators remoteDir).toList = []
  · rw [root, List.nil_append] at spelledDir
    have someSlash : count ≠ 0 := by
      rintro rfl
      exact notEmpty spelledDir
    obtain ⟨more, rfl⟩ := Nat.exists_eq_succ_of_ne_zero someSlash
    rw [root, List.nil_append, components_below_root, isName]
    conv_rhs => rw [spelledDir]
    rw [components_separators]
    rfl
  · rw [components_append_separator _ root, isName]
    conv_rhs => rw [spelledDir]
    rw [components_trailing root]

/-! ## Agreement -/

/-- For every directory that the shell keeps, that is not trimmed by the
worker and does not end in a backslash, both transports store the file at one
path. -/
theorem transports_agree
    {Address : Type} {parseAddress : String → Option Address}
    {shell : ShellEnvironment} {worker : CachedWorker}
    {options : TransferOptions} {remoteDir name : String}
    (named : worker.IsPlain)
    (optionsKept :
      ∀ argument ∈ "--peer-thumbprint" :: options.localThumbprint ::
          "--save-dir" :: options.later,
        KeptByShell shell argument)
    (readable :
      ∀ server, options.stunServer = some server →
        (parseAddress server).isSome = true)
    (normal : IsNormalName name)
    (dirKept : KeptByShell shell remoteDir)
    (dirTrimmed : trimControls remoteDir = remoteDir)
    (ends : EndsInSlashes remoteDir)
    (nameTrimmed : trimControls name = name) :
    ∃ path,
      fallbackDestination shell remoteDir name = some path ∧
        workerDestination parseAddress shell
            (worker.command (options.workerArgs remoteDir)) name =
          some path := by
  have notEmpty : remoteDir ≠ "" := by
    rintro rfl
    have kept : "" ≠ "" := dirKept.1
    exact kept rfl
  have kept :
      ∀ argument ∈ options.workerArgs remoteDir,
        KeptByShell shell argument := by
    intro argument member
    simp only [TransferOptions.workerArgs, List.mem_append,
      List.mem_cons, List.not_mem_nil, or_false] at member
    simp only [List.mem_cons] at optionsKept
    rcases member with (first | second | third | rfl) | later
    · exact optionsKept argument (.inl first)
    · exact optionsKept argument (.inr (.inl second))
    · exact optionsKept argument (.inr (.inr (.inl third)))
    · exact dirKept
    · exact optionsKept argument (.inr (.inr (.inr later)))
  have someArgument : options.workerArgs remoteDir ≠ [] := by
    rw [TransferOptions.workerArgs]
    exact List.cons_ne_nil _ _
  obtain ⟨command, program, parsed, noOutput, arguments⟩ :=
    worker_arguments named someArgument kept
  obtain ⟨settings, scanned, saveDir⟩ :=
    fromArgs_workerArgs readable shell.home program remoteDir
  have isName :
      fileName (components (trimControls name)) = some name := by
    rw [nameTrimmed, components_of_normal normal]
    rfl
  refine
    ⟨fromHome shell (components remoteDir ++ [.normal name]), ?_, ?_⟩
  · rw [fallbackDestination, catTarget_fallbackCommand notEmpty,
      Option.map_some, components_fallbackPath notEmpty ends normal]
  · simp only [workerDestination, parsed, noOutput, arguments, scanned,
      saveDir, dirTrimmed]
    rw [destinationPath_named remoteDir isName, dirTrimmed]

/-- A remote without other users, on which no pattern matches. -/
def plainRemote : ShellEnvironment where
  home := "/home/u"
  login := fun _ => none
  matching := fun _ => []

def plainOptions : TransferOptions where
  localThumbprint := "0123456789ABCDEF0123456789ABCDEF01234567"
  checksum := true
  resume := false
  publicCandidate := none
  localUdpPort := "50000"
  stunServer := none
  quicPort := none

def plainWorker : CachedWorker where
  bundleDir := "bundle-0a1b"
  binaryName := "worker-v0.5.0"

theorem plainOptions_kept :
    ∀ argument ∈ "--peer-thumbprint" :: plainOptions.localThumbprint ::
        "--save-dir" :: plainOptions.later,
      KeptByShell plainRemote argument := by
  decide +kernel

/-- A directory with a space and an apostrophe. -/
theorem transports_agree_spaced :
    ∃ path,
      fallbackDestination plainRemote "it's here/new" "f" = some path ∧
        workerDestination (fun _ => (none : Option Unit)) plainRemote
            (plainWorker.command
              (plainOptions.workerArgs "it's here/new")) "f" =
          some path :=
  transports_agree (by decide +kernel) plainOptions_kept nofun
    (by decide +kernel) (by decide +kernel) (by decide +kernel)
    (by decide +kernel) (by decide +kernel)

/-- Below a tilde the worker goes to the home directory, and the fallback to a
directory that is called `~`. -/
theorem transports_disagree_on_tilde :
    ¬ ∀ (shell : ShellEnvironment) (worker : CachedWorker)
        (options : TransferOptions) (remoteDir name : String),
        worker.IsPlain →
          (∀ argument ∈ "--peer-thumbprint" ::
              options.localThumbprint :: "--save-dir" :: options.later,
            KeptByShell shell argument) →
            options.stunServer = none →
              IsNormalName name →
                fallbackDestination shell remoteDir name =
                  workerDestination (fun _ => (none : Option Unit)) shell
                    (worker.command (options.workerArgs remoteDir))
                    name := by
  intro always
  have same :=
    always plainRemote plainWorker plainOptions "~/docs" "f"
      (by decide +kernel) plainOptions_kept rfl (by decide +kernel)
  have different :
      fallbackDestination plainRemote "~/docs" "f" ≠
        workerDestination (fun _ => (none : Option Unit)) plainRemote
          (plainWorker.command (plainOptions.workerArgs "~/docs"))
          "f" := by
    decide +kernel
  exact different same

end Quiczilla
