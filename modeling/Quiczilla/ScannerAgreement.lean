import Quiczilla.CliArguments

/-!
# The scans of the command line against its strict parser

On a vector that spells each option as a token of its own, with the operands of
a transfer in front, the scans read the fields of the structure that the strict
parser fills.  In the other spellings that the parser accepts, the scans miss
the option.
-/

namespace Quiczilla

open Foundation CommandSpec

/-! ## The settings that the structures stand for -/

/-- The fields that a structure has for the connection and its output. -/
structure OutputFields where
  quiet : Bool
  json : Bool
  verbose : Bool
  noProgress : Bool
  resume : Bool
  transport : Option String
  stunServer : Option String
  quicHost : Option String
  quicPort : Option Nat
  sshPort : Option Nat
  sshIdentity : Option String

section Settings

variable {Address : Type}
  (parseAddress : String → Option Address) (currentDir : String)

def transportOf (transport : Option String) : TransportPreference :=
  (transport.bind TransportPreference.parse).getD .auto

/-- The parser leaves the address of the server to `from_args`. -/
def readAddress : Option String → Except String (Option Address)
  | none => .ok none
  | some server =>
      match parseAddress server with
      | some address => .ok (some address)
      | none => .error "Invalid STUN server address"

def OutputFields.options (fields : OutputFields) :
    Except String (OutputOptions Address) :=
  match readAddress parseAddress fields.stunServer with
  | .error message => .error message
  | .ok stunServer =>
      OutputOptions.checked {
        quiet := fields.quiet
        json := fields.json
        verbose := fields.verbose
        noProgress := fields.noProgress
        resume := fields.resume
        transport := transportOf fields.transport
        stunServer := stunServer
        quicHost := fields.quicHost
        quicPort := fields.quicPort
        sshPort := fields.sshPort
        sshIdentity := fields.sshIdentity
      }

def TransferCli.outputFields (cli : TransferCli) : OutputFields where
  quiet := cli.quiet
  json := cli.json
  verbose := cli.verbose
  noProgress := cli.noProgress
  resume := cli.resume
  transport := cli.transport
  stunServer := cli.stunServer
  quicHost := cli.quicHost
  quicPort := cli.quicPort
  sshPort := cli.sshPort
  sshIdentity := cli.sshIdentity

def PipeCli.outputFields (cli : PipeCli) : OutputFields where
  quiet := cli.quiet
  json := cli.json
  verbose := cli.verbose
  noProgress := cli.noProgress
  resume := false
  transport := cli.transport
  stunServer := cli.stunServer
  quicHost := cli.quicHost
  quicPort := cli.quicPort
  sshPort := cli.sshPort
  sshIdentity := cli.sshIdentity

def DirectCli.outputFields (cli : DirectCli) : OutputFields where
  quiet := cli.quiet
  json := false
  verbose := cli.verbose
  noProgress := cli.noProgress
  resume := cli.resume
  transport := none
  stunServer := none
  quicHost := none
  quicPort := none
  sshPort := none
  sshIdentity := none

def TransferCli.profile (cli : TransferCli) : StorageProfile :=
  (cli.storageProfile.bind StorageProfile.parse).getD .auto

def conflictPolicyOf (value : Option String) : ConflictPolicy :=
  if value = some "refuse" then .refuse else .overwrite

def DaemonCli.settings (cli : DaemonCli) : WorkerSettings Address :=
  { WorkerSettings.initial currentDir with
    isDaemon := true
    allowThumbprintsFile := some cli.allowThumbprints
    port := cli.port.getD 0
    saveDir := cli.saveDir.getD currentDir
    identityDir := cli.identityDir
    verify := cli.checksum
    resume := cli.resume
    conflictPolicy := conflictPolicyOf cli.onConflict }

/-- The settings that the fields of the structure are. -/
def Cli.invocation : Cli → Invocation Address
  | .transfer cli =>
      .withOptions (cli.outputFields.options parseAddress) fun output =>
        .transfer {
          localFile := cli.localFile
          remoteTarget := cli.remoteTarget
          checksum := cli.checksum
          storageProfile := .ok cli.profile
          output := output
        }
  | .pipe cli =>
      .withOptions (cli.outputFields.options parseAddress) fun output =>
        .pipe {
          target := cli.target
          remoteCommand := cli.remoteCommand
          checksum := cli.checksum
          output := output
        }
  | .daemon cli => .daemon (cli.settings currentDir)
  | .direct cli =>
      .withOptions (cli.outputFields.options parseAddress) fun output =>
        .direct {
          host := cli.host
          localFile := cli.localFile
          thumbprint := cli.thumbprint
          checksum := cli.checksum
          identityDir := cli.identityDir
          output := output
        }
  | .identity cli => .identity cli.identityDir

end Settings

/-! ## The spelling that the scans know -/

/-- The tokens that `run` and `OutputOptions::from_args` look for in every
vector. -/
def runNames : List String :=
  OutputScan.known.map Prod.fst ++
    (["--quiet", "-q", "--json", "--verbose", "--no-progress", "-c",
        "--resume"] ++
      (helpNames ++ versionNames))

/-- The tokens that are looked for among the arguments of a command. -/
def Command.scanned : Command → List String
  | .pipe => runNames
  | .daemon => runNames ++ workerOptions.map Prod.fst
  | .identity => runNames ++ ["--identity-dir"]
  | .direct => runNames ++ (checksumNames ++ ["--thumbprint", "--identity-dir"])
  | .send | .transfer => runNames ++ (checksumNames ++ ["--storage-profile"])

/-- Whether the command takes its first two arguments for its operands. -/
def Command.takesPlaces : Command → Bool
  | .send | .transfer | .direct => true
  | .pipe | .daemon | .identity => false

def commandOf (args : List String) : Command :=
  Command.ofWord (args.getD 1 "")

def commandArguments (args : List String) : List String :=
  (commandOf args).arguments args

structure SpelledOut (args : List String) : Prop where
  program : ∀ program ∈ args.head?, program ∉ runNames
  options :
    (commandOf args).spec.spellsOut (commandOf args).scanned
      (commandArguments args) = true
  operands :
    (commandOf args).takesPlaces = true →
      ∀ token ∈ (commandArguments args).take 2, isDashed token = false
  /-- The worker drops the control characters around the directory. -/
  saveDir :
    commandOf args = .daemon →
      ∀ directory,
        optionValue (commandArguments args) "--save-dir" =
            some directory →
          trimControls directory = directory

/-! ## The tables -/

def outputOption : CliOption → Option OutputOption
  | .transport => some .transport
  | .stunServer => some .stunServer
  | .quicHost => some .quicHost
  | .quicPort => some .quicPort
  | .port => some .sshPort
  | .identity => some .sshIdentity
  | _ => none

/-- The options of `quic daemon`, as the worker knows them. -/
def workerOption : CliOption → Option WorkerOption
  | .allowThumbprints => some .allowThumbprints
  | .port => some .port
  | .saveDir => some .saveDir
  | .identityDir => some .identityDir
  | .checksum => some .verify
  | .resume => some .resume
  | .onConflict => some .onConflict
  | _ => none

theorem spec_isWellFormed (command : Command) :
    command.spec.IsWellFormed := by
  unfold CommandSpec.IsWellFormed
  cases command <;> decide

theorem scanned_dashed (command : Command) :
    ∀ name ∈ command.scanned, isDashed name = true ∧ name ≠ "--" := by
  cases command <;> decide

theorem runNames_subset_scanned (command : Command) :
    ∀ name ∈ runNames, name ∈ command.scanned := by
  intro name member
  cases command with
  | pipe => exact member
  | _ => exact List.mem_append_left _ member

theorem outputScan_known (command : Command) :
    (∀ entry ∈ OutputScan.known,
        isDashed entry.1 = true ∧ entry.1 ≠ "--") ∧
      (∀ option ∈ command.spec.options, ∀ name ∈ option.names,
        OutputScan.known.lookup name = outputOption option.id) ∧
        ∀ option ∈ command.spec.options,
          (outputOption option.id).isSome = true →
            option.takesValue = true := by
  cases command <;> decide

theorem workerOptions_known :
    (∀ entry ∈ workerOptions,
        isDashed entry.1 = true ∧ entry.1 ≠ "--") ∧
      (∀ option ∈ daemonSpec.options, ∀ name ∈ option.names,
        workerOptions.lookup name = workerOption option.id) ∧
        ∀ option ∈ daemonSpec.options,
          (workerOption option.id).map WorkerOption.takesValue =
            some option.takesValue := by
  decide

section Fits

variable {Address : Type} {parseAddress : String → Option Address}

theorem outputScan_fits (command : Command) :
    (OutputScan.scanner parseAddress).Fits command.spec outputOption
      command.scanned where
  dashed := (outputScan_known command).1
  hidden := by
    intro entry member
    apply runNames_subset_scanned
    exact List.mem_append_left _ (List.mem_map_of_mem member)
  translated := (outputScan_known command).2.1
  takesValue := by
    intro option member known isKnown
    have some := congrArg Option.isSome isKnown
    exact ((outputScan_known command).2.2 option member some).symm

theorem worker_fits :
    (WorkerSettings.scanner parseAddress).Fits daemonSpec workerOption
      (Command.scanned .daemon) where
  dashed := workerOptions_known.1
  hidden := by
    intro entry member
    exact List.mem_append_right _ (List.mem_map_of_mem member)
  translated := workerOptions_known.2.1
  takesValue := by
    intro option member known isKnown
    have same := workerOptions_known.2.2 option member
    rw [isKnown] at same
    exact Option.some.inj same

end Fits

/-! ## The scan of the worker and of the output options -/

/-- A value that the scans read as the parser does; a flag has none. -/
def ReadsAlike : CliOption → String → Prop
  | .transport, value => (TransportPreference.parse value).isSome = true
  | .storageProfile, value => (StorageProfile.parse value).isSome = true
  | .port, value | .quicPort, value =>
      ∃ port, parseRanged value = some port ∧ parseU16 value = some port
  | .onConflict, value => value = "overwrite" ∨ value = "refuse"
  | .resume, _ | .checksum, _ | .quiet, _ | .noProgress, _ | .json, _
  | .verbose, _ => False
  | _, _ => True

theorem parseRanged_of_plain
    {value : String} (plain : isDashed value = false) :
    parseRanged value = parseU16 value := by
  unfold parseRanged
  split
  · rename_i digits isValue
    have single : value = "-" := by
      simpa [isDashed, isValue] using plain
    subst single
    obtain rfl : digits = [] := by
      simpa using isValue.symm
    decide
  · rfl

def Readable (option : OptionSpec CliOption) : Prop :=
  ∀ value,
    option.takesValue = true → option.accepts value = true →
      isDashed value = false → ReadsAlike option.id value

theorem readable_flag (id : CliOption) (names : List String) :
    Readable (flagSpec id names) := by
  intro value takesValue
  cases takesValue

theorem readable_text
    {id : CliOption} (anything : ∀ value, ReadsAlike id value)
    (names : List String) :
    Readable (textSpec id names) :=
  fun value _ _ _ => anything value

theorem readable_choice
    {id : CliOption} {values : List String}
    (each : ∀ value ∈ values, ReadsAlike id value) (names : List String) :
    Readable (choiceSpec id names values) := by
  intro value _ accepts _
  apply each
  simpa [choiceSpec] using accepts

theorem readable_number
    {id : CliOption} (isPort : id = .port ∨ id = .quicPort)
    (names : List String) :
    Readable (numberSpec id names) := by
  intro value _ accepts plain
  obtain ⟨port, ranged⟩ := Option.isSome_iff_exists.mp accepts
  have parsed : parseU16 value = some port := by
    rw [← parseRanged_of_plain plain, ranged]
  rcases isPort with rfl | rfl
  · exact ⟨port, ranged, parsed⟩
  · exact ⟨port, ranged, parsed⟩

theorem readable_spec (command : Command) :
    ∀ option ∈ command.spec.options, Readable option := by
  cases command <;>
    simp only [Command.spec, pipeSpec, transferSpec, daemonSpec,
      directSpec, identitySpec, resumeFlag, checksumFlag,
      List.forall_mem_cons, List.not_mem_nil, false_imp_iff, implies_true,
      and_true, true_and, readable_flag]
  all_goals
    repeat' apply And.intro
  all_goals
    first
    | apply readable_text
      intro value
      exact trivial
    | apply readable_number
      decide
    | apply readable_choice
      unfold ReadsAlike
      decide

/-- Every value of an accepted vector that is spelled out can be read. -/
theorem readsAlike_of_mem
    {command : Command} {forbidden arguments : List String}
    {occurrences : List (Occurrence CliOption)}
    (accepted : command.spec.accept arguments = some occurrences)
    (spelled : Spelled command.spec forbidden arguments occurrences)
    {id : CliOption} {value : String}
    (member : .option id (some value) ∈ occurrences) :
    ReadsAlike id value := by
  obtain ⟨option, isOption, rfl, takesValue, accepts, plain⟩ :=
    accepts_of_mem accepted spelled member
  exact
    readable_spec command option isOption value takesValue accepts plain

section Scans

variable {Address : Type} {parseAddress : String → Option Address}
  {currentDir : String}

/-- What the scan of the output options comes to. -/
def OutputScan.ofOccurrences
    (parseAddress : String → Option Address)
    (occurrences : List (Occurrence CliOption)) :
    Except String (OutputScan Address) :=
  match readAddress parseAddress (value? occurrences .stunServer) with
  | .error message => .error message
  | .ok stunServer =>
      .ok {
        transport := transportOf (value? occurrences .transport)
        stunServer := stunServer
        quicHost := value? occurrences .quicHost
        quicPort := numberOf occurrences .quicPort
        sshPort := numberOf occurrences .port
        sshIdentity := value? occurrences .identity
      }

/-- One more occurrence that is fresh and can be read. -/
theorem follow_output
    {before : List (Occurrence CliOption)} {last : Occurrence CliOption}
    (fresh :
      ∀ id, last.id? = some id →
        id ∉ before.filterMap Occurrence.id?)
    (reads : ∀ id value, last = .option id (some value) → ReadsAlike id value) :
    ((OutputScan.ofOccurrences parseAddress before).bind fun scan =>
        (OutputScan.scanner parseAddress).follow outputOption scan last) =
      OutputScan.ofOccurrences parseAddress (before ++ [last]) := by
  cases last with
  | positional text =>
      simp only [OutputScan.ofOccurrences, numberOf,
        value?_append_singleton, Occurrence.valueOf, Option.or_none]
      cases readAddress parseAddress (value? before .stunServer) <;> rfl
  | option id value =>
      have absent := (fields_of_absent (fresh id rfl)).2
      cases value with
      | none =>
          simp only [OutputScan.ofOccurrences, numberOf,
            value?_append_singleton, Occurrence.valueOf, ite_self,
            Option.or_none]
          cases readAddress parseAddress (value? before .stunServer) <;>
            cases id <;> rfl
      | some value =>
          have read := reads id value rfl
          simp only [OutputScan.ofOccurrences, numberOf,
            value?_append_singleton, Occurrence.valueOf]
          cases id <;>
            simp only [reduceCtorEq, if_false, if_true, Option.or_none,
              absent, Option.none_or]
          case stunServer =>
            simp only [readAddress, Except.bind, Scanner.follow,
              outputOption, OutputScan.scanner, OutputScan.assign]
            cases parseAddress value <;> rfl
          case transport =>
            obtain ⟨transport, isTransport⟩ :=
              Option.isSome_iff_exists.mp read
            cases readAddress parseAddress (value? before .stunServer) with
            | error message => rfl
            | ok stunServer =>
                simp only [Except.bind, Scanner.follow, outputOption,
                  OutputScan.scanner, OutputScan.assign, isTransport,
                  transportOf, Option.bind_some, Option.getD_some]
          case port | quicPort =>
            obtain ⟨port, ranged, parsed⟩ := read
            cases readAddress parseAddress (value? before .stunServer) with
            | error message => rfl
            | ok stunServer =>
                simp only [Except.bind, Scanner.follow, outputOption,
                  OutputScan.scanner, OutputScan.assign, parsed, ranged,
                  Option.bind_some]
          all_goals
            cases readAddress parseAddress (value? before .stunServer) <;>
              rfl

/-- What the scan of the worker comes to behind `quic daemon`. -/
def WorkerSettings.ofOccurrences
    (currentDir : String) (occurrences : List (Occurrence CliOption)) :
    WorkerSettings Address :=
  { WorkerSettings.initial currentDir with
    isDaemon := true
    allowThumbprintsFile := value? occurrences .allowThumbprints
    port := (numberOf occurrences .port).getD 0
    saveDir :=
      ((value? occurrences .saveDir).map trimControls).getD currentDir
    identityDir := value? occurrences .identityDir
    verify := given occurrences .checksum
    resume := given occurrences .resume
    conflictPolicy := conflictPolicyOf (value? occurrences .onConflict) }

theorem follow_worker
    {before : List (Occurrence CliOption)} {last : Occurrence CliOption}
    (fresh :
      ∀ id, last.id? = some id →
        id ∉ before.filterMap Occurrence.id?)
    (reads : ∀ id value, last = .option id (some value) → ReadsAlike id value) :
    (WorkerSettings.scanner parseAddress).follow workerOption
        (WorkerSettings.ofOccurrences currentDir before) last =
      .ok (WorkerSettings.ofOccurrences currentDir (before ++ [last])) := by
  cases last with
  | positional text =>
      simp only [WorkerSettings.ofOccurrences, numberOf,
        value?_append_singleton, given_append_singleton,
        Occurrence.valueOf, Occurrence.id?, Option.or_none, reduceCtorEq,
        decide_false, Bool.or_false]
      rfl
  | option id value =>
      have absent := (fields_of_absent (fresh id rfl)).2
      simp only [WorkerSettings.ofOccurrences, numberOf,
        value?_append_singleton, given_append_singleton,
        Occurrence.valueOf, Occurrence.id?, Option.some.injEq]
      cases value with
      | none =>
          cases id <;>
            simp only [ite_self, Option.or_none, reduceCtorEq, decide_false,
              decide_true, Bool.or_false, Bool.or_true] <;>
            rfl
      | some value =>
          have read := reads id value rfl
          cases id <;>
            simp only [reduceCtorEq, if_false, if_true, Option.or_none,
              absent, Option.none_or, decide_false, Bool.or_false]
          case checksum | resume => exact read.elim
          case port =>
            obtain ⟨port, ranged, parsed⟩ := read
            simp only [Scanner.follow, workerOption,
              WorkerSettings.scanner, WorkerSettings.assign, parsed,
              ranged, Option.bind_some]
          case onConflict =>
            rcases read with rfl | rfl <;> rfl
          all_goals rfl

variable {command : Command} {arguments : List String}
  {occurrences : List (Occurrence CliOption)}

theorem scan_output
    (accepted : command.spec.accept arguments = some occurrences)
    (spelled :
      Spelled command.spec command.scanned arguments occurrences) :
    (OutputScan.scanner parseAddress).scan OutputScan.initial arguments =
      OutputScan.ofOccurrences parseAddress occurrences := by
  obtain ⟨_, _, _, nodup, _⟩ := accept_eq_some accepted
  rw [scan_spelled (outputScan_fits command) spelled]
  refine
    foldlM_fresh (OutputScan.ofOccurrences parseAddress) rfl
      (fun _ _ fresh reads => follow_output fresh reads) nodup ?_
  rintro _ member id value rfl
  exact readsAlike_of_mem accepted spelled member

theorem scan_worker
    (accepted : daemonSpec.accept arguments = some occurrences)
    (spelled :
      Spelled daemonSpec (Command.scanned .daemon) arguments
        occurrences) :
    WorkerSettings.fromArgs parseAddress currentDir
        ("quiczilla-worker" :: "--daemon" :: arguments) =
      .ok (WorkerSettings.ofOccurrences currentDir occurrences) := by
  obtain ⟨_, _, _, nodup, _⟩ := accept_eq_some accepted
  have isDaemon :
      (WorkerSettings.scanner parseAddress).known.lookup "--daemon" =
        some .daemon :=
    rfl
  rw [WorkerSettings.fromArgs, List.tail_cons,
    Scanner.scan_flag isDaemon rfl, scan_spelled worker_fits spelled]
  refine
    foldlM_fresh
      (fun before => .ok (WorkerSettings.ofOccurrences currentDir before))
      rfl (fun _ _ fresh reads => follow_worker fresh reads) nodup ?_
  rintro _ member id value rfl
  exact
    readsAlike_of_mem (show (Command.spec .daemon).accept arguments = _ from accepted)
      spelled member

end Scans

/-! ## The flags and the single values -/

/-- The flags that are searched for, by their names. -/
def flagTable : List (List String × CliOption) :=
  [(["--quiet", "-q"], .quiet), (["--json"], .json),
    (["--verbose"], .verbose), (["--no-progress"], .noProgress),
    (["-c", "--resume"], .resume), (checksumNames, .checksum)]

/-- The options whose value is searched for, by their name. -/
def valueTable : List (String × CliOption) :=
  [("--storage-profile", .storageProfile), ("--thumbprint", .thumbprint),
    ("--identity-dir", .identityDir), ("--save-dir", .saveDir)]

theorem flagTable_known (command : Command) :
    ∀ entry ∈ flagTable,
      (∀ name ∈ entry.1, isDashed name = true ∧ name ≠ "--") ∧
        ∀ option ∈ command.spec.options, ∀ name ∈ option.names,
          entry.1.contains name = decide (option.id = entry.2) := by
  cases command <;> decide

theorem valueTable_known (command : Command) :
    ∀ entry ∈ valueTable,
      isDashed entry.1 = true ∧ entry.1 ≠ "--" ∧
        (∀ option ∈ command.spec.options, ∀ name ∈ option.names,
          (name = entry.1 ↔ option.id = entry.2)) ∧
          ∀ option ∈ command.spec.options,
            option.id = entry.2 → option.takesValue = true := by
  cases command <;> decide

theorem helpNames_known (command : Command) :
    ∀ names ∈ [helpNames, versionNames],
      (∀ name ∈ names, name ∈ runNames) ∧
        ∀ option ∈ command.spec.options, ∀ name ∈ option.names,
          names.contains name = false := by
  cases command <;> decide

section Searches

variable {command : Command} {arguments : List String}
  {occurrences : List (Occurrence CliOption)}

theorem anyOf_spelled
    {names : List String} {id : CliOption}
    (entry : (names, id) ∈ flagTable)
    (hidden : ∀ name ∈ names, name ∈ command.scanned)
    (spelled :
      Spelled command.spec command.scanned arguments occurrences) :
    anyOf arguments names = given occurrences id := by
  obtain ⟨dashed, translated⟩ := flagTable_known command _ entry
  exact given_spelled dashed hidden translated spelled

theorem value_spelled
    {name : String} {id : CliOption} (entry : (name, id) ∈ valueTable)
    (hidden : name ∈ command.scanned)
    (spelled :
      Spelled command.spec command.scanned arguments occurrences) :
    optionValue arguments name = value? occurrences id := by
  obtain ⟨dashed, notEscape, translated, takesValue⟩ :=
    valueTable_known command _ entry
  exact
    optionValue_spelled dashed notEscape hidden translated takesValue
      spelled

/-- Nothing that is accepted asks for help or for the version. -/
theorem no_help_spelled
    {names : List String} (isHelp : names ∈ [helpNames, versionNames])
    (spelled :
      Spelled command.spec command.scanned arguments occurrences) :
    anyOf arguments names = false := by
  obtain ⟨known, foreign⟩ := helpNames_known command names isHelp
  have hidden (name : String) (member : name ∈ names) :
      name ∈ command.scanned :=
    runNames_subset_scanned command name (known name member)
  have found :
      anyOf arguments names =
        occurrences.any fun occurrence =>
          occurrence.id?.any fun _ => false :=
    any_spelled (fun name member => scanned_dashed command name (hidden name member))
      hidden foreign spelled
  rw [found, List.any_eq_false]
  intro occurrence _
  cases occurrence <;> simp [Occurrence.id?]

/-- The program and the word of the command are no tokens that are looked
for. -/
theorem anyOf_front
    {front names : List String}
    (front_unknown : ∀ token ∈ front, token ∉ runNames)
    (known : ∀ name ∈ names, name ∈ runNames) (arguments : List String) :
    anyOf (front ++ arguments) names = anyOf arguments names := by
  have notFront : anyOf front names = false := by
    rw [anyOf, List.any_eq_false]
    intro token member contained
    exact
      front_unknown token member (known token (by simpa using contained))
  rw [anyOf, List.any_append]
  rw [anyOf] at notFront
  rw [notFront, Bool.false_or, anyOf]

end Searches

/-! ## The output options -/

def OutputFields.ofOccurrences
    (occurrences : List (Occurrence CliOption)) : OutputFields where
  quiet := given occurrences .quiet
  json := given occurrences .json
  verbose := given occurrences .verbose
  noProgress := given occurrences .noProgress
  resume := given occurrences .resume
  transport := value? occurrences .transport
  stunServer := value? occurrences .stunServer
  quicHost := value? occurrences .quicHost
  quicPort := numberOf occurrences .quicPort
  sshPort := numberOf occurrences .port
  sshIdentity := value? occurrences .identity

section Run

variable {Address : Type} {parseAddress : String → Option Address}
  {currentDir : String} {command : Command}
  {front arguments : List String}
  {occurrences : List (Occurrence CliOption)}

theorem fromArgs_spelled
    (front_unknown : ∀ token ∈ front, token ∉ runNames)
    (accepted : command.spec.accept arguments = some occurrences)
    (spelled :
      Spelled command.spec command.scanned arguments occurrences) :
    OutputOptions.fromArgs parseAddress (front ++ arguments) =
      (OutputFields.ofOccurrences occurrences).options parseAddress := by
  have unknown :
      ∀ token ∈ front,
        (OutputScan.scanner parseAddress).known.lookup token = none := by
    intro token member
    rw [List.lookup_eq_none_iff]
    intro entry known
    have different : token ≠ entry.1 := by
      rintro rfl
      exact
        front_unknown _ member
          (List.mem_append_left _ (List.mem_map_of_mem known))
    simpa using different
  have flags {names : List String} {id : CliOption}
      (entry : (names, id) ∈ flagTable)
      (known : ∀ name ∈ names, name ∈ runNames) :
      anyOf (front ++ arguments) names = given occurrences id := by
    rw [anyOf_front front_unknown known]
    exact
      anyOf_spelled entry
        (fun name member =>
          runNames_subset_scanned command name (known name member))
        spelled
  have quiet :
      anyOf (front ++ arguments) ["--quiet", "-q"] =
        given occurrences .quiet :=
    flags (by decide) (by decide)
  have json :
      anyOf (front ++ arguments) ["--json"] = given occurrences .json :=
    flags (by decide) (by decide)
  have verbose :
      anyOf (front ++ arguments) ["--verbose"] =
        given occurrences .verbose :=
    flags (by decide) (by decide)
  have noProgress :
      anyOf (front ++ arguments) ["--no-progress"] =
        given occurrences .noProgress :=
    flags (by decide) (by decide)
  have resume :
      anyOf (front ++ arguments) ["-c", "--resume"] =
        given occurrences .resume :=
    flags (by decide) (by decide)
  rw [OutputOptions.fromArgs, Scanner.scan_unknowns unknown,
    scan_output accepted spelled, OutputScan.ofOccurrences,
    OutputFields.options, OutputFields.ofOccurrences]
  cases readAddress parseAddress (value? occurrences .stunServer) with
  | error message => rfl
  | ok stunServer =>
      simp only [quiet, json, verbose, noProgress, resume]

/-- Where the vector goes on behind the program and the command. -/
theorem front_of_vector
    {program word : String} {rest : List String}
    (program_unknown : program ∉ runNames) :
    ∃ front,
      program :: word :: rest =
          front ++ (Command.ofWord word).arguments (program :: word :: rest) ∧
        ∀ token ∈ front, token ∉ runNames := by
  have words :
      ∀ word ∈ ["pipe", "send", "daemon", "identity", "direct", "--direct"],
        word ∉ runNames := by
    decide
  by_cases isTransfer : Command.ofWord word = .transfer
  · refine ⟨[program], ?_, ?_⟩
    · rw [isTransfer]
      rfl
    · simpa using program_unknown
  · have isWord :
        word ∈ ["pipe", "send", "daemon", "identity", "direct",
          "--direct"] := by
      by_contra other
      simp only [List.mem_cons, List.not_mem_nil, or_false, not_or]
        at other
      simp [Command.ofWord, other] at isTransfer
    refine ⟨[program, word], ?_, ?_⟩
    · cases isCommand : Command.ofWord word with
      | transfer => exact absurd isCommand isTransfer
      | _ => rfl
    · intro token member
      rcases List.mem_cons.mp member with rfl | member
      · exact program_unknown
      · rw [List.mem_singleton.mp member]
        exact words word isWord

/-- The two operands in front are the positionals. -/
theorem operands_spelled
    (accepted : command.spec.accept arguments = some occurrences)
    (spelled :
      Spelled command.spec command.scanned arguments occurrences)
    (two : command.spec.required = 2 ∧ command.spec.maximum = 2)
    (plain : ∀ token ∈ arguments.take 2, isDashed token = false) :
    ∃ first second rest,
      arguments = first :: second :: rest ∧
        positionals occurrences = [first, second] := by
  obtain ⟨_, required, maximum, _⟩ := accept_eq_some accepted
  rw [two.1] at required
  rw [two.2] at maximum
  rcases arguments with _ | ⟨first, _ | ⟨second, rest⟩⟩
  · cases spelled
    cases required
  · obtain ⟨later, rfl, rest⟩ :=
      spelled.tail (spec_isWellFormed command)
        (plain first List.mem_cons_self)
    cases rest
    simp [positionals, Occurrence.positional?] at required
  · obtain ⟨afterFirst, rfl, spelledRest⟩ :=
      spelled.tail (spec_isWellFormed command)
        (plain first List.mem_cons_self)
    obtain ⟨later, rfl, _⟩ :=
      spelledRest.tail (spec_isWellFormed command)
        (plain second (List.mem_cons_of_mem _ List.mem_cons_self))
    refine ⟨first, second, rest, rfl, ?_⟩
    have split :
        positionals (.positional first :: .positional second :: later) =
          first :: second :: positionals later :=
      rfl
    rw [split, List.length_cons, List.length_cons] at maximum
    have noMore : (positionals later).length = 0 := by
      omega
    rw [split, List.eq_nil_of_length_eq_zero noMore]

/-- An accepted vector that asks for nothing else goes to its command. -/
theorem run_accepted
    {program word : String} {rest : List String} {cli : Cli}
    (accepted : tryParse (program :: word :: rest) = some cli)
    (noHelp : anyOf (program :: word :: rest) helpNames = false)
    (noVersion : anyOf (program :: word :: rest) versionNames = false) :
    Invocation.run parseAddress currentDir (program :: word :: rest) =
      .withOptions
        (OutputOptions.fromArgs parseAddress (program :: word :: rest))
        (.dispatch parseAddress currentDir (Command.ofWord word)
          ((Command.ofWord word).arguments (program :: word :: rest))) := by
  have valid : strictValidateArgs (program :: word :: rest) = true := by
    rw [strictValidateArgs, accepted]
    exact Bool.or_true _
  rw [Invocation.run, noHelp, noVersion, if_neg Bool.false_ne_true,
    if_neg Bool.false_ne_true]
  simp only [valid, if_true]

theorem runFileTransfer_spelled
    (isTransfer : command = .send ∨ command = .transfer)
    (accepted : command.spec.accept arguments = some occurrences)
    (spelled :
      Spelled command.spec command.scanned arguments occurrences)
    (plain : ∀ token ∈ arguments.take 2, isDashed token = false)
    {cli : TransferCli}
    (isCli : TransferCli.ofOccurrences occurrences = some cli) :
    cli.outputFields = OutputFields.ofOccurrences occurrences ∧
      ∀ output : OutputOptions Address,
        runFileTransfer arguments output =
          .transfer {
            localFile := cli.localFile
            remoteTarget := cli.remoteTarget
            checksum := cli.checksum
            storageProfile := .ok cli.profile
            output := output
          } := by
  have two : command.spec.required = 2 ∧ command.spec.maximum = 2 := by
    rcases isTransfer with rfl | rfl <;> exact ⟨rfl, rfl⟩
  have checksumHidden : ∀ name ∈ checksumNames, name ∈ command.scanned := by
    rcases isTransfer with rfl | rfl <;> decide
  have profileHidden : "--storage-profile" ∈ command.scanned := by
    rcases isTransfer with rfl | rfl <;> decide
  have isChecksum :
      anyOf arguments checksumNames = given occurrences .checksum :=
    anyOf_spelled (by decide) checksumHidden spelled
  have isProfile :
      optionValue arguments "--storage-profile" =
        value? occurrences .storageProfile :=
    value_spelled (by decide) profileHidden spelled
  obtain ⟨localFile, remoteTarget, rest, rfl, operands⟩ :=
    operands_spelled accepted spelled two plain
  rw [TransferCli.ofOccurrences, operands] at isCli
  cases isCli
  refine ⟨rfl, fun output => ?_⟩
  have profile :
      directoryStorageProfile (localFile :: remoteTarget :: rest) =
        .ok (((value? occurrences .storageProfile).bind
          StorageProfile.parse).getD .auto) := by
    rw [directoryStorageProfile, isProfile]
    cases given : value? occurrences .storageProfile with
    | none => rfl
    | some value =>
        have read : ReadsAlike .storageProfile value :=
          readsAlike_of_mem accepted spelled (mem_of_value? given)
        obtain ⟨profile, isRead⟩ := Option.isSome_iff_exists.mp read
        simp only [Option.getD_some, Option.bind_some, isRead]
  rw [runFileTransfer, isChecksum, profile]
  rfl

theorem runDirect_spelled
    (accepted : directSpec.accept arguments = some occurrences)
    (spelled :
      Spelled directSpec (Command.scanned .direct) arguments occurrences)
    (plain : ∀ token ∈ arguments.take 2, isDashed token = false)
    {cli : DirectCli}
    (isCli : DirectCli.ofOccurrences occurrences = some cli) :
    cli.outputFields = OutputFields.ofOccurrences occurrences ∧
      ∀ output : OutputOptions Address,
        runDirect arguments output =
          .direct {
            host := cli.host
            localFile := cli.localFile
            thumbprint := cli.thumbprint
            checksum := cli.checksum
            identityDir := cli.identityDir
            output := output
          } := by
  have inCommand :
      Spelled (Command.spec .direct) (Command.scanned .direct) arguments
        occurrences :=
    spelled
  have isChecksum :
      anyOf arguments checksumNames = given occurrences .checksum :=
    anyOf_spelled (by decide) (by decide) inCommand
  have isThumbprint :
      optionValue arguments "--thumbprint" =
        value? occurrences .thumbprint :=
    value_spelled (by decide) (by decide) inCommand
  have isIdentityDir :
      optionValue arguments "--identity-dir" =
        value? occurrences .identityDir :=
    value_spelled (by decide) (by decide) inCommand
  have absent (id : CliOption)
      (foreign : ∀ option ∈ directSpec.options, option.id ≠ id) :=
    fields_of_foreign spelled foreign
  have noJson := (absent .json (by decide)).1
  have noTransport := (absent .transport (by decide)).2
  have noStunServer := (absent .stunServer (by decide)).2
  have noQuicHost := (absent .quicHost (by decide)).2
  have noQuicPort := (absent .quicPort (by decide)).2
  have noPort := (absent .port (by decide)).2
  have noIdentity := (absent .identity (by decide)).2
  obtain ⟨host, localFile, rest, rfl, operands⟩ :=
    operands_spelled (show (Command.spec .direct).accept arguments = _ from accepted)
      inCommand ⟨rfl, rfl⟩ plain
  rw [DirectCli.ofOccurrences, operands] at isCli
  cases isThumb : value? occurrences .thumbprint with
  | none =>
      rw [isThumb] at isCli
      cases isCli
  | some thumbprint =>
      rw [isThumb] at isCli isThumbprint
      cases isCli
      constructor
      · simp only [DirectCli.outputFields, OutputFields.ofOccurrences,
          numberOf, noJson, noTransport, noStunServer, noQuicHost,
          noQuicPort, noPort, noIdentity, Option.bind_none]
      · intro output
        simp only [runDirect, isThumbprint, isChecksum, isIdentityDir]

theorem options_transport
    {fields : OutputFields} {output : OutputOptions Address}
    (isOutput : fields.options parseAddress = .ok output) :
    output.transport = transportOf fields.transport := by
  rw [OutputFields.options] at isOutput
  split at isOutput
  · cases isOutput
  · rw [OutputOptions.checked] at isOutput
    split at isOutput
    · cases isOutput
    · cases isOutput
      rfl

/-- The parser refuses the SSH fallback for a pipe. -/
theorem pipe_transport
    (accepted : pipeSpec.accept arguments = some occurrences) :
    transportOf (value? occurrences .transport) ≠ .ssh := by
  obtain ⟨_, _, _, _, accepts, _⟩ := accept_eq_some accepted
  have accepts :
      (value? occurrences .transport).all
          (["auto", "direct", "stun", "manual"].contains ·) = true :=
    accepts
      (choiceSpec .transport ["--transport"]
        ["auto", "direct", "stun", "manual"])
      (by simp [pipeSpec])
  have notSsh :
      ∀ value ∈ ["auto", "direct", "stun", "manual"],
        transportOf (some value) ≠ .ssh := by
    decide
  cases given : value? occurrences .transport with
  | none => decide
  | some value =>
      rw [given] at accepts
      exact notSsh value (by simpa using accepts)

theorem runPipe_spelled
    (accepted : pipeSpec.accept arguments = some occurrences)
    (spelled :
      Spelled pipeSpec (Command.scanned .pipe) arguments occurrences)
    {cli : PipeCli}
    (isCli : PipeCli.ofOccurrences occurrences = some cli) :
    cli.outputFields = OutputFields.ofOccurrences occurrences ∧
      ∀ output,
        cli.outputFields.options parseAddress = .ok output →
          runPipe arguments output =
            .pipe {
              target := cli.target
              remoteCommand := cli.remoteCommand
              checksum := cli.checksum
              output := output
            } := by
  have noResume :=
    (fields_of_foreign spelled
      (show ∀ option ∈ pipeSpec.options, option.id ≠ .resume by
        decide)).1
  have fields :
      cli.outputFields = OutputFields.ofOccurrences occurrences ∧
        cli.transport = value? occurrences .transport := by
    rw [PipeCli.ofOccurrences] at isCli
    split at isCli
    · cases isCli
      simp only [PipeCli.outputFields, OutputFields.ofOccurrences,
        noResume, and_self]
    · cases isCli
  refine ⟨fields.1, ?_⟩
  intro output isOutput
  have notSsh : output.transport ≠ .ssh := by
    rw [options_transport isOutput, PipeCli.outputFields, fields.2]
    exact pipe_transport accepted
  simp only [runPipe, accepted, Option.bind_some, isCli, if_neg notSsh]

theorem runDaemon_spelled
    (accepted : daemonSpec.accept arguments = some occurrences)
    (spelled :
      Spelled daemonSpec (Command.scanned .daemon) arguments occurrences)
    (saveDir :
      ∀ directory,
        optionValue arguments "--save-dir" = some directory →
          trimControls directory = directory)
    {cli : DaemonCli}
    (isCli : DaemonCli.ofOccurrences occurrences = some cli) :
    runDaemon parseAddress currentDir arguments =
      .daemon (cli.settings currentDir) := by
  have isSaveDir :
      optionValue arguments "--save-dir" = value? occurrences .saveDir :=
    value_spelled
      (show ("--save-dir", CliOption.saveDir) ∈ valueTable by decide)
      (by decide)
      (show Spelled (Command.spec .daemon) _ arguments occurrences
        from spelled)
  have trimmed :
      (value? occurrences .saveDir).map trimControls =
        value? occurrences .saveDir := by
    rw [isSaveDir] at saveDir
    cases given : value? occurrences .saveDir with
    | none => rfl
    | some directory => rw [Option.map_some, saveDir directory given]
  obtain ⟨allowThumbprints, isAllowed, rfl⟩ :=
    Option.map_eq_some_iff.mp isCli
  rw [runDaemon, scan_worker accepted spelled,
    WorkerSettings.ofOccurrences, trimmed, isAllowed]
  rfl

/-- Two commands that use the output options alike. -/
theorem withOptions_congr
    {options : Except String (OutputOptions Address)}
    {used command : OutputOptions Address → Invocation Address}
    (uses :
      ∀ output, options = .ok output → used output = command output) :
    Invocation.withOptions options used =
      Invocation.withOptions options command := by
  cases options with
  | error message => rfl
  | ok output => exact uses output rfl

/-- A command without an address and without `--quiet` has its output
options. -/
theorem options_isOk
    (noServer : value? occurrences .stunServer = none)
    (notQuiet : given occurrences .quiet = false) :
    ∃ output,
      (OutputFields.ofOccurrences occurrences).options parseAddress =
        .ok output := by
  simp only [OutputFields.options, OutputFields.ofOccurrences, noServer,
    readAddress, OutputOptions.checked, notQuiet, Bool.false_and,
    Bool.false_eq_true, if_false]
  exact ⟨_, rfl⟩

end Run

/-- On an accepted vector that is spelled out, the settings that are used are
the fields of the structure that the strict parser fills. -/
theorem scanners_agree
    {Address : Type} (parseAddress : String → Option Address)
    (currentDir : String) {args : List String} {cli : Cli}
    (accepted : tryParse args = some cli)
    (spelledOut : SpelledOut args) :
    Invocation.run parseAddress currentDir args =
      cli.invocation parseAddress currentDir := by
  rcases args with _ | ⟨program, _ | ⟨word, rest⟩⟩
  · cases accepted
  · cases accepted
  have isCommand :
      commandOf (program :: word :: rest) = Command.ofWord word :=
    rfl
  obtain ⟨program_unknown, options, operands, saveDir⟩ := spelledOut
  rw [commandArguments, isCommand] at options operands saveDir
  obtain ⟨front, isFront, front_unknown⟩ :=
    @front_of_vector program word rest (program_unknown program rfl)
  obtain ⟨occurrences, acceptedOccurrences, isCli⟩ :=
    Option.bind_eq_some_iff.mp accepted
  generalize isArguments :
    (Command.ofWord word).arguments (program :: word :: rest) = arguments
    at *
  have spelled :=
    spelled_of_parse (spec_isWellFormed _)
      (accept_eq_some acceptedOccurrences).1 options
  have noHelp :
      anyOf (program :: word :: rest) helpNames = false := by
    rw [isFront, anyOf_front front_unknown (by decide)]
    exact no_help_spelled (by decide) spelled
  have noVersion :
      anyOf (program :: word :: rest) versionNames = false := by
    rw [isFront, anyOf_front front_unknown (by decide)]
    exact no_help_spelled (by decide) spelled
  rw [run_accepted accepted noHelp noVersion, isArguments, isFront,
    fromArgs_spelled front_unknown acceptedOccurrences spelled]
  clear isFront front_unknown noHelp noVersion accepted isArguments
  generalize Command.ofWord word = command at *
  cases command with
  | pipe =>
      obtain ⟨pipe, isPipe, rfl⟩ := Option.map_eq_some_iff.mp isCli
      obtain ⟨fields, uses⟩ :=
        runPipe_spelled acceptedOccurrences spelled isPipe
      rw [Cli.invocation, ← fields]
      exact withOptions_congr uses
  | daemon =>
      obtain ⟨daemon, isDaemon, rfl⟩ := Option.map_eq_some_iff.mp isCli
      have noServer :=
        (fields_of_foreign spelled
          (show ∀ option ∈ daemonSpec.options, option.id ≠ .stunServer
            by decide)).2
      have notQuiet :=
        (fields_of_foreign spelled
          (show ∀ option ∈ daemonSpec.options, option.id ≠ .quiet
            by decide)).1
      obtain ⟨output, isOutput⟩ := options_isOk noServer notQuiet
      rw [isOutput, Cli.invocation]
      exact
        runDaemon_spelled acceptedOccurrences spelled (saveDir rfl)
          isDaemon
  | identity =>
      cases isCli
      have noServer :=
        (fields_of_foreign spelled
          (show ∀ option ∈ identitySpec.options, option.id ≠ .stunServer
            by decide)).2
      have notQuiet :=
        (fields_of_foreign spelled
          (show ∀ option ∈ identitySpec.options, option.id ≠ .quiet
            by decide)).1
      obtain ⟨output, isOutput⟩ := options_isOk noServer notQuiet
      have isIdentityDir :
          optionValue arguments "--identity-dir" =
            value? occurrences .identityDir :=
        value_spelled (by decide) (by decide) spelled
      rw [isOutput, Cli.invocation, Invocation.withOptions,
        Invocation.dispatch, isIdentityDir]
      rfl
  | direct =>
      obtain ⟨direct, isDirect, rfl⟩ := Option.map_eq_some_iff.mp isCli
      obtain ⟨fields, uses⟩ :=
        runDirect_spelled acceptedOccurrences spelled (operands rfl)
          isDirect
      rw [Cli.invocation, ← fields]
      exact withOptions_congr fun output _ => uses output
  | send =>
      obtain ⟨transfer, isTransfer, rfl⟩ := Option.map_eq_some_iff.mp isCli
      obtain ⟨fields, uses⟩ :=
        runFileTransfer_spelled (.inl rfl) acceptedOccurrences spelled
          (operands rfl) isTransfer
      rw [Cli.invocation, ← fields]
      exact withOptions_congr fun output _ => uses output
  | transfer =>
      obtain ⟨transfer, isTransfer, rfl⟩ := Option.map_eq_some_iff.mp isCli
      obtain ⟨fields, uses⟩ :=
        runFileTransfer_spelled (.inr rfl) acceptedOccurrences spelled
          (operands rfl) isTransfer
      rw [Cli.invocation, ← fields]
      exact withOptions_congr fun output _ => uses output

theorem scanners_agree_on_refuse :
    Invocation.run (fun _ => some ()) "/home/receiver"
        ["quic", "daemon", "--allow-thumbprints", "clients.txt",
          "--save-dir", "/srv/incoming", "-c", "--on-conflict", "refuse"] =
      (Cli.daemon {
        allowThumbprints := "clients.txt"
        port := none
        saveDir := some "/srv/incoming"
        identityDir := none
        checksum := false
        resume := true
        onConflict := some "refuse"
      }).invocation (fun _ => some ()) "/home/receiver" := by
  apply scanners_agree (fun _ => some ()) "/home/receiver"
  · decide
  · constructor
    · decide
    · decide
    · decide
    · intro _ directory isDirectory
      have same : some "/srv/incoming" = some directory := by
        rw [← isDirectory]
        decide
      obtain rfl := Option.some.inj same
      decide +kernel

/-- `--on-conflict=refuse` is accepted, and the worker overwrites. -/
theorem scanners_disagree_on_attached_value :
    ∃ cli,
      tryParse
          ["quic", "daemon", "--allow-thumbprints", "clients.txt",
            "--on-conflict=refuse"] =
        some (.daemon cli) ∧
        cli.onConflict = some "refuse" ∧
          (∃ settings : WorkerSettings Unit,
            Invocation.run (fun _ => some ()) "/home/receiver"
                ["quic", "daemon", "--allow-thumbprints", "clients.txt",
                  "--on-conflict=refuse"] =
              .daemon settings ∧
              settings.conflictPolicy = .overwrite) ∧
            Invocation.run (fun _ => some ()) "/home/receiver"
                ["quic", "daemon", "--allow-thumbprints", "clients.txt",
                  "--on-conflict=refuse"] ≠
              (Cli.daemon cli).invocation (fun _ => some ())
                "/home/receiver" := by
  refine
    ⟨{
      allowThumbprints := "clients.txt"
      port := none
      saveDir := none
      identityDir := none
      checksum := false
      resume := false
      onConflict := some "refuse"
    }, ?_, rfl, ⟨{ WorkerSettings.initial "/home/receiver" with
      isDaemon := true
      allowThumbprintsFile := some "clients.txt" }, ?_, rfl⟩, ?_⟩
  · decide
  · decide
  · decide

end Quiczilla
