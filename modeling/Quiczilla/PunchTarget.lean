import Quiczilla.FallbackVerification
import Quiczilla.SocketText

/-!
# The punch target of the worker

The client hands its server-reflexive address to the worker as two arguments,
and the worker joins them with a colon and parses the result as a socket
address.
-/

namespace Quiczilla

open Foundation

/-! ## The worker -/

/-- The variables of an SSH session, as far as they are set. -/
structure SshVariables where
  sshConnection : Option String
  sshClient : Option String
  deriving DecidableEq, Repr

/-- The `ip_str` of `main`. -/
def punchHost (environment : SshVariables) (punchIp : Option String) :
    String :=
  match punchIp, environment.sshConnection, environment.sshClient with
  | some ip, _, _ => ip
  | none, some connection, _ => (firstWord connection).getD ""
  | none, none, some client => (firstWord client).getD ""
  | none, none, none => ""

def WorkerSettings.punchTarget {Address : Type}
    (environment : SshVariables) (settings : WorkerSettings Address) :
    Option ScopedAddress :=
  match settings.punchPort with
  | some port =>
      let host := punchHost environment settings.punchIp
      if host ≠ "" then parseSocketAddr (joinPort host port) else none
  | none => none

/-- The punch target of a worker that is started with the arguments. -/
def workerPunchTarget
    (environment : SshVariables) (currentDir : String)
    (arguments : List String) : Except String (Option ScopedAddress) :=
  (WorkerSettings.fromArgs parseSocketAddr currentDir arguments).map
    (WorkerSettings.punchTarget environment)

/-! ## The arguments that the client passes -/

def candidateArgs (candidate : SocketAddress) : List String :=
  ["--punch-ip", candidate.ip.text, "--punch-port",
    toString candidate.port.toNat]

/-- What every worker is started with.  The address of the STUN server and
the ports are printed already. -/
structure LaunchOptions where
  localThumbprint : String
  localUdpPort : String
  stunServer : Option String
  quicPort : Option String
  deriving DecidableEq, Repr

/-- What is pushed behind the candidate. -/
def LaunchOptions.behind (options : LaunchOptions) : List String :=
  (match options.stunServer with
    | some server => ["--stun-server", server]
    | none => []) ++
    (match options.quicPort with
      | some port => ["--port", port]
      | none => [])

/-- The three commands that start a worker. -/
inductive WorkerTask where
  | file (remotePath : String) (checksum resume : Bool)
  | directory (remotePath : String)
  | pipe (execCmd : Option String) (verify : Bool)
  deriving DecidableEq, Repr

/-- What is pushed before the candidate. -/
def LaunchOptions.before (options : LaunchOptions) :
    WorkerTask → List String
  | .file remotePath checksum resume =>
      ["--peer-thumbprint", options.localThumbprint, "--save-dir",
          remotePath] ++
        (if checksum then ["--checksum"] else []) ++
        (if resume then ["--resume"] else [])
  | .directory remotePath =>
      ["--directory", "--peer-thumbprint", options.localThumbprint,
        "--save-dir", remotePath, "--punch-port", options.localUdpPort]
  | .pipe execCmd verify =>
      ["--pipe", "--peer-thumbprint", options.localThumbprint,
          "--punch-port", options.localUdpPort] ++
        (match execCmd with
          | some command =>
              ["--exec-hex", hexEncode command.toUTF8.toList]
          | none => []) ++
        (if verify then ["--verify"] else [])

/-- The `worker_args` of a client with a server-reflexive address. -/
def LaunchOptions.workerArgs
    (options : LaunchOptions) (task : WorkerTask)
    (candidate : SocketAddress) : List String :=
  options.before task ++ candidateArgs candidate ++ options.behind

/-! ## The scan -/

/-- The two settings that the punch target is made of. -/
def WorkerSettings.punchView {Address : Type}
    (settings : WorkerSettings Address) : Option String × Option Nat :=
  (settings.punchIp, settings.punchPort)

/-- Arguments that the scan of the worker reads without an error. -/
def CanRead (arguments : List String) : Prop :=
  PassesOver parseSocketAddr
    (fun _ : WorkerSettings ScopedAddress => ()) arguments

theorem canRead_flag
    {argument : String} (option : WorkerOption)
    (known : workerOptions.lookup argument = some option)
    (flag : option.takesValue = false) : CanRead [argument] := by
  apply passesOver_flag option known flag
  intro settings
  rfl

theorem canRead_value
    {argument value : String} (option : WorkerOption)
    (known : workerOptions.lookup argument = some option)
    (takes : option.takesValue = true)
    (assigns :
      ∀ settings : WorkerSettings ScopedAddress, ∃ assigned,
        settings.assign parseSocketAddr option value = .ok assigned) :
    CanRead [argument, value] := by
  apply passesOver_value option known takes
  intro settings
  obtain ⟨assigned, assignsTo⟩ := assigns settings
  exact ⟨assigned, assignsTo, rfl⟩

theorem canRead_execHex (command : String) :
    CanRead ["--exec-hex", command] := by
  apply canRead_value .execHex rfl rfl
  intro settings
  cases decoded : WorkerSettings.decodeExec command with
  | none =>
      refine ⟨settings, ?_⟩
      simp only [WorkerSettings.assign, decoded]
  | some execCommand =>
      refine ⟨{ settings with execCommand := some execCommand }, ?_⟩
      simp only [WorkerSettings.assign, decoded]

theorem canRead_before
    (options : LaunchOptions) (task : WorkerTask) :
    CanRead (options.before task) := by
  have thumbprint :
      CanRead ["--peer-thumbprint", options.localThumbprint] :=
    canRead_value .peerThumbprint rfl rfl fun _ => ⟨_, rfl⟩
  have saveDir (path : String) : CanRead ["--save-dir", path] :=
    canRead_value .saveDir rfl rfl fun _ => ⟨_, rfl⟩
  have punchPort :
      CanRead ["--punch-port", options.localUdpPort] :=
    canRead_value .punchPort rfl rfl fun _ => ⟨_, rfl⟩
  have optional {flag : String} (given : Bool)
      (readable : CanRead [flag]) :
      CanRead (if given then [flag] else []) := by
    cases given with
    | true => exact readable
    | false => exact passesOver_nil
  cases task with
  | file remotePath checksum resume =>
      exact
        ((thumbprint.append (saveDir remotePath)).append
          (optional checksum (canRead_flag .verify rfl rfl))).append
          (optional resume (canRead_flag .resume rfl rfl))
  | directory remotePath =>
      exact
        (((canRead_flag .directory rfl rfl).append thumbprint).append
          (saveDir remotePath)).append punchPort
  | pipe execCmd verify =>
      have exec :
          CanRead
            (match execCmd with
              | some command =>
                  ["--exec-hex", hexEncode command.toUTF8.toList]
              | none => []) := by
        cases execCmd with
        | none => exact passesOver_nil
        | some command => exact canRead_execHex _
      exact
        ((((canRead_flag .pipe rfl rfl).append thumbprint).append
          punchPort).append exec).append
          (optional verify (canRead_flag .verify rfl rfl))

/-- The server and the port of the worker say nothing about the punch
target. -/
theorem passesOver_behind
    {options : LaunchOptions}
    (readable :
      ∀ server ∈ options.stunServer,
        (parseSocketAddr server).isSome = true) :
    PassesOver parseSocketAddr WorkerSettings.punchView
      options.behind := by
  apply PassesOver.append
  · cases isServer : options.stunServer with
    | none => exact passesOver_nil
    | some server =>
        apply passesOver_value .stunServer rfl rfl
        intro settings
        obtain ⟨address, isAddress⟩ :=
          Option.isSome_iff_exists.mp (readable server isServer)
        refine ⟨{ settings with stunServer := some address }, ?_, rfl⟩
        simp only [WorkerSettings.assign, isAddress]
  · cases options.quicPort with
    | none => exact passesOver_nil
    | some port =>
        apply passesOver_value .port rfl rfl
        intro settings
        exact ⟨_, rfl, rfl⟩

/-- The last address and the last port are those of the candidate, whatever
stood before them. -/
theorem fromArgs_candidate
    (currentDir program : String) {options : LaunchOptions}
    (task : WorkerTask) (candidate : SocketAddress)
    (readable :
      ∀ server ∈ options.stunServer,
        (parseSocketAddr server).isSome = true) :
    ∃ settings,
      WorkerSettings.fromArgs parseSocketAddr currentDir
          (program :: options.workerArgs task candidate) =
        .ok settings ∧
      settings.punchIp = some candidate.ip.text ∧
        settings.punchPort = some candidate.port.toNat := by
  have isPort :
      parseU16 (toString candidate.port.toNat) =
        some candidate.port.toNat :=
    parseUnsigned_toString candidate.port.toNat_lt
  obtain ⟨atCandidate, -, scannedBefore⟩ :=
    canRead_before options task (WorkerSettings.initial currentDir)
      (candidateArgs candidate ++ options.behind)
  have portAssigned :
      WorkerSettings.assign parseSocketAddr
          { atCandidate with punchIp := some candidate.ip.text }
          .punchPort (toString candidate.port.toNat) =
        .ok
          { atCandidate with
            punchIp := some candidate.ip.text
            punchPort := some candidate.port.toNat } := by
    simp only [WorkerSettings.assign, isPort]
  have scannedCandidate :
      (WorkerSettings.scanner parseSocketAddr).scan atCandidate
          (candidateArgs candidate ++ options.behind) =
        (WorkerSettings.scanner parseSocketAddr).scan
          { atCandidate with
            punchIp := some candidate.ip.text
            punchPort := some candidate.port.toNat }
          options.behind :=
    (Scanner.scan_value rfl rfl rfl _).trans
      (Scanner.scan_value rfl rfl portAssigned _)
  obtain ⟨settings, sameView, scannedBehind⟩ :=
    passesOver_behind readable
      { atCandidate with
        punchIp := some candidate.ip.text
        punchPort := some candidate.port.toNat } []
  rw [List.append_nil] at scannedBehind
  have sameParts := Prod.mk.inj sameView
  refine ⟨settings, ?_, sameParts.1, sameParts.2⟩
  rw [WorkerSettings.fromArgs, List.tail_cons,
    LaunchOptions.workerArgs, List.append_assoc, scannedBefore,
    scannedCandidate, scannedBehind, Scanner.scan]

/-! ## The round trip -/

theorem text_ne_empty (ip : IpAddress) : ip.text ≠ "" := by
  intro isEmpty
  have noText : ip.text.toList = [] := by
    rw [isEmpty]
    rfl
  cases ip with
  | v4 octets =>
      simp [IpAddress.text, dotted] at noText
  | v6 octets =>
      obtain ⟨digits, rest, -, isText⟩ := colonText_colonFirst octets
      rw [IpAddress.text, String.toList_ofList, isText] at noText
      simp at noText

theorem workerPunchTarget_eq
    (environment : SshVariables) (currentDir program : String)
    {options : LaunchOptions} (task : WorkerTask)
    (candidate : SocketAddress)
    (readable :
      ∀ server ∈ options.stunServer,
        (parseSocketAddr server).isSome = true) :
    workerPunchTarget environment currentDir
        (program :: options.workerArgs task candidate) =
      .ok
        (parseSocketAddr
          (joinPort candidate.ip.text candidate.port.toNat)) := by
  obtain ⟨settings, scanned, isIp, isPort⟩ :=
    fromArgs_candidate currentDir program task candidate readable
  have target :
      settings.punchTarget environment =
        parseSocketAddr
          (joinPort candidate.ip.text candidate.port.toNat) := by
    simp only [WorkerSettings.punchTarget, isPort, isIp, punchHost,
      ne_eq, text_ne_empty, not_false_eq_true, if_true]
  rw [workerPunchTarget, scanned, Except.map, target]

/-- The worker punches exactly the address of the client when that is an IPv4
address; it has no punch target otherwise. -/
theorem punchTarget_survives_exactly
    (environment : SshVariables) (currentDir program : String)
    (options : LaunchOptions) (task : WorkerTask)
    (candidate : SocketAddress)
    (readable :
      ∀ server ∈ options.stunServer,
        (parseSocketAddr server).isSome = true) :
    workerPunchTarget environment currentDir
        (program :: options.workerArgs task candidate) =
        .ok (some ⟨candidate, 0⟩) ↔
      ∃ octets, candidate.ip = .v4 octets := by
  rw [workerPunchTarget_eq environment currentDir program task candidate
    readable]
  obtain ⟨ip, port⟩ := candidate
  cases ip with
  | v4 octets => simp [parseSocketAddr_v4]
  | v6 octets => simp [parseSocketAddr_v6]

theorem punchTarget_survives_documentation_address :
    workerPunchTarget ⟨some "198.51.100.7 50022 10.0.0.2 22", none⟩
        "/home/user"
        ("worker" ::
          LaunchOptions.workerArgs
            ⟨"AB12", "40000", some "192.0.2.1:3478", none⟩
            (.directory "inbox") ⟨.v4 #v[203, 0, 113, 9], 61000⟩) =
      .ok (some ⟨⟨.v4 #v[203, 0, 113, 9], 61000⟩, 0⟩) :=
  (punchTarget_survives_exactly _ _ _ _ _ _ (by decide)).mpr
    ⟨_, rfl⟩

/-- The address 2001:db8::9 is joined to 2001:db8::9:61000. -/
theorem ipv6_candidate_is_not_punched :
    workerPunchTarget ⟨none, none⟩ "/home/user"
        ("worker" ::
          LaunchOptions.workerArgs ⟨"AB12", "40000", none, none⟩
            (.directory "inbox")
            ⟨.v6 #v[0x20, 0x01, 0x0d, 0xb8, 0, 0, 0, 0, 0, 0, 0, 0, 0, 0, 0,
              9], 61000⟩) ≠
      .ok
        (some
          ⟨⟨.v6 #v[0x20, 0x01, 0x0d, 0xb8, 0, 0, 0, 0, 0, 0, 0, 0, 0, 0, 0,
            9], 61000⟩, 0⟩) := by
  rw [workerPunchTarget_eq _ _ _ _ _ (by simp), parseSocketAddr_v6]
  simp

end Quiczilla
