import Quiczilla.Foundation.CommandLine
import Quiczilla.Foundation.Text
import Quiczilla.WorkerLoop

/-!
# The arguments of the worker

`main` of the worker scans its arguments from left to right: it acts on the
options that it knows, in the spelling that it knows, and passes over
everything else.  The addresses of STUN servers are read by the parser
`parseAddress` of the standard library.
-/

namespace Quiczilla

open Foundation

inductive WorkerOption where
  | peerThumbprint
  | saveDir
  | pipe
  | directory
  | exec
  | execHex
  | verify
  | daemon
  | allowThumbprints
  | port
  | punchPort
  | punchIp
  | stunServer
  | resume
  | identityDir
  | onConflict
  deriving DecidableEq, Repr

def workerOptions : List (String × WorkerOption) :=
  [("--peer-thumbprint", .peerThumbprint), ("--save-dir", .saveDir),
    ("--pipe", .pipe), ("--directory", .directory), ("--exec", .exec),
    ("--exec-hex", .execHex), ("--verify", .verify),
    ("--checksum", .verify), ("--daemon", .daemon),
    ("--allow-thumbprints", .allowThumbprints), ("--port", .port),
    ("--punch-port", .punchPort), ("--punch-ip", .punchIp),
    ("--stun-server", .stunServer), ("-c", .resume),
    ("--resume", .resume), ("--identity-dir", .identityDir),
    ("--on-conflict", .onConflict)]

def WorkerOption.takesValue : WorkerOption → Bool
  | .pipe | .directory | .verify | .daemon | .resume => false
  | _ => true

structure WorkerSettings (Address : Type) where
  expectedThumbprint : String
  saveDir : String
  isPipeMode : Bool
  isDirectoryMode : Bool
  execCommand : Option String
  verify : Bool
  isDaemon : Bool
  allowThumbprintsFile : Option String
  port : Nat
  punchPort : Option Nat
  punchIp : Option String
  stunServer : Option Address
  resume : Bool
  identityDir : Option String
  conflictPolicy : ConflictPolicy
  deriving DecidableEq, Repr

namespace WorkerSettings

variable {Address : Type}

def initial (currentDir : String) : WorkerSettings Address where
  expectedThumbprint := ""
  saveDir := currentDir
  isPipeMode := false
  isDirectoryMode := false
  execCommand := none
  verify := false
  isDaemon := false
  allowThumbprintsFile := none
  port := 0
  punchPort := none
  punchIp := none
  stunServer := none
  resume := false
  identityDir := none
  conflictPolicy := .overwrite

/-- The command that `--exec-hex` spells. -/
def decodeExec (value : String) : Option String :=
  (hexDecode value.toList).bind fun bytes =>
    String.fromUTF8? ⟨bytes.toArray⟩

/-- What an option without a value does. -/
def set
    (settings : WorkerSettings Address) (option : WorkerOption) :
    WorkerSettings Address :=
  match option with
  | .pipe => { settings with isPipeMode := true }
  | .directory => { settings with isDirectoryMode := true }
  | .verify => { settings with verify := true }
  | .daemon => { settings with isDaemon := true }
  | .resume => { settings with resume := true }
  | _ => settings

/-- What an option does with its value. -/
def assign
    (parseAddress : String → Option Address)
    (settings : WorkerSettings Address) (option : WorkerOption)
    (value : String) : Except String (WorkerSettings Address) :=
  match option with
  | .peerThumbprint => .ok { settings with expectedThumbprint := value }
  | .saveDir => .ok { settings with saveDir := trimControls value }
  | .exec => .ok { settings with execCommand := some value }
  | .execHex =>
      match decodeExec value with
      | some command => .ok { settings with execCommand := some command }
      | none => .ok settings
  | .allowThumbprints =>
      .ok { settings with allowThumbprintsFile := some value }
  | .port => .ok { settings with port := (parseU16 value).getD 0 }
  | .punchPort => .ok { settings with punchPort := parseU16 value }
  | .punchIp => .ok { settings with punchIp := some value }
  | .stunServer =>
      match parseAddress value with
      | some address => .ok { settings with stunServer := some address }
      | none =>
          .error ("invalid STUN server address '" ++ value ++ "'")
  | .identityDir => .ok { settings with identityDir := some value }
  | .onConflict =>
      if value = "overwrite" then
        .ok { settings with conflictPolicy := .overwrite }
      else if value = "refuse" then
        .ok { settings with conflictPolicy := .refuse }
      else
        .error
          ("invalid --on-conflict value '" ++ value ++
            "'; expected overwrite or refuse")
  | _ => .ok settings

/-- Only `--on-conflict` insists on its value. -/
def missing
    (settings : WorkerSettings Address) (option : WorkerOption) :
    Except String (WorkerSettings Address) :=
  if option = .onConflict then
    .error "--on-conflict requires overwrite or refuse"
  else .ok settings

def scanner (parseAddress : String → Option Address) :
    Scanner (WorkerSettings Address) WorkerOption String where
  known := workerOptions
  takesValue := WorkerOption.takesValue
  set := set
  assign := assign parseAddress
  missing := missing

/-- The scan of the arguments after the program's name. -/
def fromArgs
    (parseAddress : String → Option Address) (currentDir : String)
    (arguments : List String) :
    Except String (WorkerSettings Address) :=
  (scanner parseAddress).scan (initial currentDir) arguments.tail

/-- What `handle_incoming_connection` gets of the settings. -/
def config (settings : WorkerSettings Address) : WorkerConfig where
  saveDir := settings.saveDir
  verify := settings.verify
  resume := settings.resume
  conflictPolicy := settings.conflictPolicy

variable {parseAddress : String → Option Address}
  {settings : WorkerSettings Address}

/-- Only `--save-dir` changes the directory. -/
theorem assign_saveDir
    {option : WorkerOption} {value : String}
    {assigned : WorkerSettings Address} (other : option ≠ .saveDir)
    (assigns : settings.assign parseAddress option value = .ok assigned) :
    assigned.saveDir = settings.saveDir := by
  cases option with
  | saveDir => exact absurd rfl other
  | execHex =>
      simp only [assign] at assigns
      split at assigns <;> cases assigns <;> rfl
  | stunServer =>
      simp only [assign] at assigns
      split at assigns <;> cases assigns
      rfl
  | onConflict =>
      simp only [assign] at assigns
      split at assigns
      · cases assigns
        rfl
      · split at assigns <;> cases assigns
        rfl
  | _ =>
      cases assigns
      rfl

theorem set_saveDir (option : WorkerOption) :
    (settings.set option).saveDir = settings.saveDir := by
  cases option <;> rfl

end WorkerSettings

/-! ## Arguments that are passed -/

section Passing

variable {Address View : Type} {parseAddress : String → Option Address}
  {view : WorkerSettings Address → View}

/-- Arguments that the scan passes without touching what the view shows. -/
def PassesOver
    (parseAddress : String → Option Address)
    (view : WorkerSettings Address → View) (arguments : List String) :
    Prop :=
  ∀ settings rest, ∃ after : WorkerSettings Address,
    view after = view settings ∧
      (WorkerSettings.scanner parseAddress).scan settings
          (arguments ++ rest) =
        (WorkerSettings.scanner parseAddress).scan after rest

theorem PassesOver.append
    {first second : List String}
    (passesFirst : PassesOver parseAddress view first)
    (passesSecond : PassesOver parseAddress view second) :
    PassesOver parseAddress view (first ++ second) := by
  intro settings rest
  obtain ⟨middle, sameFirst, scannedFirst⟩ :=
    passesFirst settings (second ++ rest)
  obtain ⟨after, sameSecond, scannedSecond⟩ := passesSecond middle rest
  refine ⟨after, sameSecond.trans sameFirst, ?_⟩
  rw [List.append_assoc, scannedFirst, scannedSecond]

theorem passesOver_nil : PassesOver parseAddress view [] := by
  intro settings rest
  exact ⟨settings, rfl, rfl⟩

theorem passesOver_flag
    {argument : String} (option : WorkerOption)
    (known : workerOptions.lookup argument = some option)
    (flag : option.takesValue = false)
    (keeps : ∀ settings, view (settings.set option) = view settings) :
    PassesOver parseAddress view [argument] := by
  intro settings rest
  exact
    ⟨settings.set option, keeps settings,
      Scanner.scan_flag known flag rest⟩

theorem passesOver_value
    {argument value : String} (option : WorkerOption)
    (known : workerOptions.lookup argument = some option)
    (takes : option.takesValue = true)
    (assigns :
      ∀ settings, ∃ assigned,
        settings.assign parseAddress option value = .ok assigned ∧
          view assigned = view settings) :
    PassesOver parseAddress view [argument, value] := by
  intro settings rest
  obtain ⟨assigned, assignsTo, keeps⟩ := assigns settings
  exact
    ⟨assigned, keeps, Scanner.scan_value known takes assignsTo rest⟩

end Passing

end Quiczilla
