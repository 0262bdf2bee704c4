import Quiczilla.DirectorySend
import Quiczilla.WorkerArguments

/-!
# The command line of `quic`

The command line is read twice.  `strict_validate_args` parses it into the
structure of its command and discards the structure; the settings are then
read by scans of the same arguments for the tokens that they know.  The worker
of `quic daemon` scans them once more.
-/

namespace Quiczilla

open Foundation

/-! ## The strict parser -/

inductive CliOption where
  | resume
  | checksum
  | identity
  | port
  | quiet
  | noProgress
  | json
  | verbose
  | transport
  | stunServer
  | quicHost
  | quicPort
  | storageProfile
  | allowThumbprints
  | saveDir
  | identityDir
  | onConflict
  | thumbprint
  deriving DecidableEq, Repr

/-- The parser reads a `u16` as an `i64` in its range. -/
def parseRanged (text : String) : Option Nat :=
  match text.toList with
  | '-' :: digits =>
      if digits ≠ [] ∧ digits.all (· == '0') = true then some 0 else none
  | _ => parseU16 text

def flagSpec (id : CliOption) (names : List String) :
    OptionSpec CliOption :=
  ⟨id, names, false, fun _ => true⟩

def textSpec (id : CliOption) (names : List String) :
    OptionSpec CliOption :=
  ⟨id, names, true, fun _ => true⟩

def numberSpec (id : CliOption) (names : List String) :
    OptionSpec CliOption :=
  ⟨id, names, true, fun value => (parseRanged value).isSome⟩

def choiceSpec (id : CliOption) (names values : List String) :
    OptionSpec CliOption :=
  ⟨id, names, true, fun value => values.contains value⟩

def resumeFlag : OptionSpec CliOption :=
  flagSpec .resume ["-c", "--resume"]

def checksumFlag : OptionSpec CliOption :=
  flagSpec .checksum ["--checksum", "--verify"]

def transferSpec : CommandSpec CliOption where
  options :=
    [resumeFlag, checksumFlag, textSpec .identity ["-i", "--identity"],
      numberSpec .port ["-p", "--port"], flagSpec .quiet ["-q", "--quiet"],
      flagSpec .noProgress ["--no-progress"], flagSpec .json ["--json"],
      flagSpec .verbose ["--verbose"],
      choiceSpec .transport ["--transport"]
        ["auto", "direct", "stun", "manual", "ssh"],
      textSpec .stunServer ["--stun-server"],
      textSpec .quicHost ["--quic-host"],
      numberSpec .quicPort ["--quic-port"],
      choiceSpec .storageProfile ["--storage-profile"]
        ["auto", "hdd", "nvme"]]
  requiredOptions := []
  required := 2
  maximum := 2

def pipeSpec : CommandSpec CliOption where
  options :=
    [checksumFlag, textSpec .identity ["-i", "--identity"],
      numberSpec .port ["-p", "--port"],
      choiceSpec .transport ["--transport"]
        ["auto", "direct", "stun", "manual"],
      textSpec .stunServer ["--stun-server"],
      textSpec .quicHost ["--quic-host"],
      numberSpec .quicPort ["--quic-port"], flagSpec .quiet ["-q", "--quiet"],
      flagSpec .noProgress ["--no-progress"], flagSpec .json ["--json"],
      flagSpec .verbose ["--verbose"]]
  requiredOptions := []
  required := 1
  maximum := 2

def daemonSpec : CommandSpec CliOption where
  options :=
    [textSpec .allowThumbprints ["--allow-thumbprints"],
      numberSpec .port ["--port"], textSpec .saveDir ["--save-dir"],
      textSpec .identityDir ["--identity-dir"], checksumFlag, resumeFlag,
      choiceSpec .onConflict ["--on-conflict"] ["overwrite", "refuse"]]
  requiredOptions := [.allowThumbprints]
  required := 0
  maximum := 0

def directSpec : CommandSpec CliOption where
  options :=
    [textSpec .thumbprint ["--thumbprint"], checksumFlag, resumeFlag,
      textSpec .identityDir ["--identity-dir"],
      flagSpec .quiet ["-q", "--quiet"], flagSpec .noProgress ["--no-progress"],
      flagSpec .verbose ["--verbose"]]
  requiredOptions := [.thumbprint]
  required := 2
  maximum := 2

def identitySpec : CommandSpec CliOption where
  options := [textSpec .identityDir ["--identity-dir"]]
  requiredOptions := []
  required := 0
  maximum := 0

inductive Command where
  | pipe
  | send
  | daemon
  | identity
  | direct
  /-- The first argument is not a command but the file to send. -/
  | transfer
  deriving DecidableEq, Repr

namespace Command

def ofWord (word : String) : Command :=
  if word = "pipe" then .pipe
  else if word = "send" then .send
  else if word = "daemon" then .daemon
  else if word = "identity" then .identity
  else if word = "direct" ∨ word = "--direct" then .direct
  else .transfer

/-- The arguments of the command in the vector. -/
def arguments (command : Command) (args : List String) : List String :=
  match command with
  | .transfer => args.drop 1
  | _ => args.drop 2

def spec : Command → CommandSpec CliOption
  | .pipe => pipeSpec
  | .send => transferSpec
  | .daemon => daemonSpec
  | .identity => identitySpec
  | .direct => directSpec
  | .transfer => transferSpec

end Command

structure TransferCli where
  localFile : String
  remoteTarget : String
  resume : Bool
  checksum : Bool
  sshIdentity : Option String
  sshPort : Option Nat
  quiet : Bool
  noProgress : Bool
  json : Bool
  verbose : Bool
  transport : Option String
  stunServer : Option String
  quicHost : Option String
  quicPort : Option Nat
  storageProfile : Option String
  deriving DecidableEq, Repr

structure PipeCli where
  target : String
  remoteCommand : Option String
  checksum : Bool
  sshIdentity : Option String
  sshPort : Option Nat
  transport : Option String
  stunServer : Option String
  quicHost : Option String
  quicPort : Option Nat
  quiet : Bool
  noProgress : Bool
  json : Bool
  verbose : Bool
  deriving DecidableEq, Repr

structure DaemonCli where
  allowThumbprints : String
  port : Option Nat
  saveDir : Option String
  identityDir : Option String
  checksum : Bool
  resume : Bool
  onConflict : Option String
  deriving DecidableEq, Repr

structure DirectCli where
  host : String
  localFile : String
  thumbprint : String
  checksum : Bool
  resume : Bool
  identityDir : Option String
  quiet : Bool
  noProgress : Bool
  verbose : Bool
  deriving DecidableEq, Repr

structure IdentityCli where
  identityDir : Option String
  deriving DecidableEq, Repr

/-- The structure that the parser fills. -/
inductive Cli where
  | transfer (cli : TransferCli)
  | pipe (cli : PipeCli)
  | daemon (cli : DaemonCli)
  | direct (cli : DirectCli)
  | identity (cli : IdentityCli)
  deriving DecidableEq, Repr

section Fields

open CommandSpec

variable (occurrences : List (Occurrence CliOption))

def numberOf (id : CliOption) : Option Nat :=
  (value? occurrences id).bind parseRanged

def TransferCli.ofOccurrences : Option TransferCli :=
  match positionals occurrences with
  | [localFile, remoteTarget] =>
      some {
        localFile := localFile
        remoteTarget := remoteTarget
        resume := given occurrences .resume
        checksum := given occurrences .checksum
        sshIdentity := value? occurrences .identity
        sshPort := numberOf occurrences .port
        quiet := given occurrences .quiet
        noProgress := given occurrences .noProgress
        json := given occurrences .json
        verbose := given occurrences .verbose
        transport := value? occurrences .transport
        stunServer := value? occurrences .stunServer
        quicHost := value? occurrences .quicHost
        quicPort := numberOf occurrences .quicPort
        storageProfile := value? occurrences .storageProfile
      }
  | _ => none

def PipeCli.ofOccurrences : Option PipeCli :=
  match positionals occurrences with
  | target :: commands =>
      some {
        target := target
        remoteCommand := commands.head?
        checksum := given occurrences .checksum
        sshIdentity := value? occurrences .identity
        sshPort := numberOf occurrences .port
        transport := value? occurrences .transport
        stunServer := value? occurrences .stunServer
        quicHost := value? occurrences .quicHost
        quicPort := numberOf occurrences .quicPort
        quiet := given occurrences .quiet
        noProgress := given occurrences .noProgress
        json := given occurrences .json
        verbose := given occurrences .verbose
      }
  | _ => none

def DaemonCli.ofOccurrences : Option DaemonCli :=
  (value? occurrences .allowThumbprints).map fun allowThumbprints => {
    allowThumbprints := allowThumbprints
    port := numberOf occurrences .port
    saveDir := value? occurrences .saveDir
    identityDir := value? occurrences .identityDir
    checksum := given occurrences .checksum
    resume := given occurrences .resume
    onConflict := value? occurrences .onConflict
  }

def DirectCli.ofOccurrences : Option DirectCli :=
  match positionals occurrences, value? occurrences .thumbprint with
  | [host, localFile], some thumbprint =>
      some {
        host := host
        localFile := localFile
        thumbprint := thumbprint
        checksum := given occurrences .checksum
        resume := given occurrences .resume
        identityDir := value? occurrences .identityDir
        quiet := given occurrences .quiet
        noProgress := given occurrences .noProgress
        verbose := given occurrences .verbose
      }
  | _, _ => none

def IdentityCli.ofOccurrences : IdentityCli where
  identityDir := value? occurrences .identityDir

def Cli.ofOccurrences : Command → Option Cli
  | .pipe => (PipeCli.ofOccurrences occurrences).map .pipe
  | .daemon => (DaemonCli.ofOccurrences occurrences).map .daemon
  | .identity => some (.identity (IdentityCli.ofOccurrences occurrences))
  | .direct => (DirectCli.ofOccurrences occurrences).map .direct
  | .send | .transfer =>
      (TransferCli.ofOccurrences occurrences).map .transfer

end Fields

/-- `try_parse_from` for the structure of the command. -/
def tryParse (args : List String) : Option Cli :=
  match args with
  | _ :: word :: _ =>
      let command := Command.ofWord word
      (command.spec.accept (command.arguments args)).bind fun occurrences =>
        Cli.ofOccurrences occurrences command
  | _ => none

/-- Without an argument there is nothing to validate. -/
def strictValidateArgs (args : List String) : Bool :=
  args.length < 2 || (tryParse args).isSome

/-! ## The scans -/

inductive TransportPreference where
  | auto
  | direct
  | stun
  | manual
  | ssh
  deriving DecidableEq, Repr

def TransportPreference.parse (value : String) :
    Option TransportPreference :=
  if value = "auto" then some .auto
  else if value = "direct" then some .direct
  else if value = "stun" then some .stun
  else if value = "manual" then some .manual
  else if value = "ssh" then some .ssh
  else none

def StorageProfile.parse (value : String) : Option StorageProfile :=
  if value = "auto" then some .auto
  else if value = "hdd" then some .hdd
  else if value = "nvme" then some .nvme
  else none

structure OutputOptions (Address : Type) where
  quiet : Bool
  json : Bool
  verbose : Bool
  noProgress : Bool
  resume : Bool
  transport : TransportPreference
  stunServer : Option Address
  quicHost : Option String
  quicPort : Option Nat
  sshPort : Option Nat
  sshIdentity : Option String
  deriving DecidableEq, Repr

/-- The variables of the loop of `OutputOptions::from_args`. -/
structure OutputScan (Address : Type) where
  transport : TransportPreference
  stunServer : Option Address
  quicHost : Option String
  quicPort : Option Nat
  sshPort : Option Nat
  sshIdentity : Option String
  deriving DecidableEq, Repr

inductive OutputOption where
  | transport
  | stunServer
  | quicHost
  | quicPort
  | sshPort
  | sshIdentity
  deriving DecidableEq, Repr

namespace OutputScan

variable {Address : Type}

def initial : OutputScan Address where
  transport := .auto
  stunServer := none
  quicHost := none
  quicPort := none
  sshPort := none
  sshIdentity := none

def known : List (String × OutputOption) :=
  [("--transport", .transport), ("--stun-server", .stunServer),
    ("--quic-host", .quicHost), ("--quic-port", .quicPort),
    ("-p", .sshPort), ("--port", .sshPort), ("-i", .sshIdentity),
    ("--identity", .sshIdentity)]

def assign
    (parseAddress : String → Option Address) (scan : OutputScan Address)
    (option : OutputOption) (value : String) :
    Except String (OutputScan Address) :=
  match option with
  | .transport =>
      match TransportPreference.parse value with
      | some transport => .ok { scan with transport := transport }
      | none => .error "Invalid transport option"
  | .stunServer =>
      match parseAddress value with
      | some address => .ok { scan with stunServer := some address }
      | none => .error "Invalid STUN server address"
  | .quicHost => .ok { scan with quicHost := some value }
  | .quicPort =>
      match parseU16 value with
      | some port => .ok { scan with quicPort := some port }
      | none => .error "Invalid QUIC port"
  | .sshPort =>
      match parseU16 value with
      | some port => .ok { scan with sshPort := some port }
      | none => .error "Invalid SSH port"
  | .sshIdentity => .ok { scan with sshIdentity := some value }

/-- Every option takes a value, and nothing insists on it. -/
def scanner (parseAddress : String → Option Address) :
    Scanner (OutputScan Address) OutputOption String where
  known := known
  takesValue := fun _ => true
  set := fun scan _ => scan
  assign := assign parseAddress
  missing := fun scan _ => .ok scan

end OutputScan

/-- `args.iter().any(|arg| arg == …)`. -/
def anyOf (args names : List String) : Bool :=
  args.any fun arg => names.contains arg

namespace OutputOptions

variable {Address : Type}

/-- The last check of `from_args`. -/
def checked (options : OutputOptions Address) :
    Except String (OutputOptions Address) :=
  if options.quiet && options.verbose then
    .error "Cannot specify both --quiet and --verbose"
  else .ok options

def fromArgs
    (parseAddress : String → Option Address) (args : List String) :
    Except String (OutputOptions Address) :=
  match (OutputScan.scanner parseAddress).scan OutputScan.initial args with
  | .error message => .error message
  | .ok scan =>
      checked {
        quiet := anyOf args ["--quiet", "-q"]
        json := anyOf args ["--json"]
        verbose := anyOf args ["--verbose"]
        noProgress := anyOf args ["--no-progress"]
        resume := anyOf args ["-c", "--resume"]
        transport := scan.transport
        stunServer := scan.stunServer
        quicHost := scan.quicHost
        quicPort := scan.quicPort
        sshPort := scan.sshPort
        sshIdentity := scan.sshIdentity
      }

end OutputOptions

def directoryStorageProfile (args : List String) :
    Except String StorageProfile :=
  match StorageProfile.parse
      ((optionValue args "--storage-profile").getD "auto") with
  | some profile => .ok profile
  | none => .error "--storage-profile must be auto, hdd, or nvme"

/-! ## The settings that are used -/

/-- The profile is read only for a directory. -/
structure TransferSettings (Address : Type) where
  localFile : String
  remoteTarget : String
  checksum : Bool
  storageProfile : Except String StorageProfile
  output : OutputOptions Address
  deriving DecidableEq, Repr

structure PipeSettings (Address : Type) where
  target : String
  remoteCommand : Option String
  checksum : Bool
  output : OutputOptions Address
  deriving DecidableEq, Repr

structure DirectSettings (Address : Type) where
  host : String
  localFile : String
  thumbprint : String
  checksum : Bool
  identityDir : Option String
  output : OutputOptions Address
  deriving DecidableEq, Repr

/-- What an invocation comes to: the settings of a command, or why there is
none. -/
inductive Invocation (Address : Type) where
  | usage
  | version
  | invalid
  | failed (message : String)
  | transfer (settings : TransferSettings Address)
  | pipe (settings : PipeSettings Address)
  | daemon (settings : WorkerSettings Address)
  | direct (settings : DirectSettings Address)
  | identity (identityDir : Option String)
  deriving DecidableEq, Repr

section Run

variable {Address : Type}

def checksumNames : List String :=
  ["--checksum", "--verify"]

def runFileTransfer
    (args : List String) (output : OutputOptions Address) :
    Invocation Address :=
  match args with
  | localFile :: remoteTarget :: _ =>
      .transfer {
        localFile := localFile
        remoteTarget := remoteTarget
        checksum := anyOf args checksumNames
        storageProfile := directoryStorageProfile args
        output := output
      }
  | _ => .failed "two transfer arguments are required"

/-- The pipe parses its arguments with the strict parser. -/
def runPipe
    (args : List String) (output : OutputOptions Address) :
    Invocation Address :=
  match (pipeSpec.accept args).bind PipeCli.ofOccurrences with
  | some pipe =>
      if output.transport = .ssh then
        .failed
          "quic pipe does not support SSH streaming fallback; select direct, STUN, manual, or auto QUIC"
      else
        .pipe {
          target := pipe.target
          remoteCommand := pipe.remoteCommand
          checksum := pipe.checksum
          output := output
        }
  | none => .invalid

def runDirect
    (args : List String) (output : OutputOptions Address) :
    Invocation Address :=
  match args, optionValue args "--thumbprint" with
  | host :: localFile :: _, some thumbprint =>
      .direct {
        host := host
        localFile := localFile
        thumbprint := thumbprint
        checksum := anyOf args checksumNames
        identityDir := optionValue args "--identity-dir"
        output := output
      }
  | _ :: _ :: _, none =>
      .failed
        "--thumbprint <server-thumbprint> is required for direct mode"
  | _, _ =>
      .failed
        "usage: quic direct <host:port> <local_file> --thumbprint <server-thumbprint> [--checksum] [-c]"

/-- The worker gets `--daemon` and the arguments as they are. -/
def runDaemon
    (parseAddress : String → Option Address) (currentDir : String)
    (args : List String) : Invocation Address :=
  match WorkerSettings.fromArgs parseAddress currentDir
      ("quiczilla-worker" :: "--daemon" :: args) with
  | .ok settings => .daemon settings
  | .error message => .failed message

def helpNames : List String :=
  ["--help", "-h"]

def versionNames : List String :=
  ["--version", "-V"]

/-- What follows the `?` behind the output options. -/
def Invocation.withOptions
    (options : Except String (OutputOptions Address))
    (command : OutputOptions Address → Invocation Address) :
    Invocation Address :=
  match options with
  | .ok output => command output
  | .error message => .failed message

def Invocation.dispatch
    (parseAddress : String → Option Address) (currentDir : String)
    (command : Command) (args : List String)
    (output : OutputOptions Address) : Invocation Address :=
  match command with
  | .pipe => runPipe args output
  | .daemon => runDaemon parseAddress currentDir args
  | .identity => .identity (optionValue args "--identity-dir")
  | .direct => runDirect args output
  | .send | .transfer => runFileTransfer args output

/-- `run` up to the settings of the command.  What the two help branches print
is left out. -/
def Invocation.run
    (parseAddress : String → Option Address) (currentDir : String)
    (args : List String) : Invocation Address :=
  if anyOf args helpNames then .usage
  else if anyOf args versionNames then .version
  else
    match args with
    | _ :: word :: _ =>
        if strictValidateArgs args then
          withOptions (OutputOptions.fromArgs parseAddress args)
            (dispatch parseAddress currentDir (Command.ofWord word)
              ((Command.ofWord word).arguments args))
        else .invalid
    | _ => .failed "a command or transfer arguments are required"

end Run

end Quiczilla
