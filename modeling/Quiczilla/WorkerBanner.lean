import Mathlib.Tactic.Ring
import Quiczilla.Foundation.Text

/-!
# The ready banner of a worker

A worker prints a line of JSON when it listens, and `bootstrap_remote_worker`
reads its lines up to that one.  The lines come parsed: `serde_json` reads an
integer of any size as a number, of which `as_u64` gives those that fit, and of
two fields with one name the last one counts.
-/

namespace Quiczilla

open Foundation

/-- `serde_json::Value`.  A `float` is every number that is not spelled as an
integer, and the negative zero. -/
inductive JsonValue where
  | null
  | bool (value : Bool)
  | integer (value : Int)
  | float (spelling : String)
  | string (value : String)
  | array (items : List JsonValue)
  | object (fields : List (String × JsonValue))

namespace JsonValue

def get (value : JsonValue) (key : String) : Option JsonValue :=
  match value with
  | object fields =>
      (fields.reverse.find? fun field => field.1 == key).map Prod.snd
  | _ => none

def asStr : JsonValue → Option String
  | string value => some value
  | _ => none

def asU64 : JsonValue → Option Nat
  | integer value =>
      if 0 ≤ value ∧ value < 2 ^ 64 then some value.toNat else none
  | _ => none

def asArray : JsonValue → Option (List JsonValue)
  | array items => some items
  | _ => none

end JsonValue

def currentProtocolVersion : Nat := 1

def minSupportedProtocolVersion : Nat := 1

def featureChecksum : String := "checksum"

def featureResume : String := "resume"

/-- What the bootstrap takes from a banner. -/
structure WorkerBanner (Address : Type) where
  udpPort : Nat
  remoteThumbprint : String
  publicUdpAddr : Option Address
  protocolVersion : Option Nat
  features : List String
  deriving DecidableEq, Repr

/-- A line of the worker's output; `failed` is an error of `read_line`. -/
inductive WorkerLine where
  | json (value : JsonValue)
  | text (line : String)
  | failed (error : String)

structure WorkerOutput where
  lines : List WorkerLine
  stderr : String

namespace WorkerBanner

variable {Address : Type}

def initial : WorkerBanner Address where
  udpPort := 0
  remoteThumbprint := ""
  publicUdpAddr := none
  protocolVersion := none
  features := []

def hasFeature (banner : WorkerBanner Address) (feature : String) : Bool :=
  match banner.protocolVersion with
  | some _ => banner.features.contains feature
  | none => feature == featureChecksum || feature == featureResume

def isReady (json : JsonValue) : Bool :=
  match (json.get "status").bind JsonValue.asStr with
  | some status => status == "ready" || status == "daemon_ready"
  | none => false

def readPort (json : JsonValue) : Nat :=
  match (json.get "udp_port").bind JsonValue.asU64 with
  | some port => port % 2 ^ 16
  | none => 0

def readThumbprint (json : JsonValue) : String :=
  ((json.get "thumbprint").bind JsonValue.asStr).getD ""

def readVersion (json : JsonValue) : Option Nat :=
  ((json.get "protocol_version").bind JsonValue.asU64).map fun version =>
    version % 2 ^ 32

def readFeatures (json : JsonValue) : List String :=
  ((json.get "features").bind JsonValue.asArray).elim []
    (List.filterMap JsonValue.asStr)

/-- The fields of a ready banner. -/
def read
    (parseAddress : String → Option Address) (json : JsonValue) :
    WorkerBanner Address where
  udpPort := readPort json
  remoteThumbprint := readThumbprint json
  publicUdpAddr :=
    ((json.get "public_udp_addr").bind JsonValue.asStr).bind parseAddress
  protocolVersion := readVersion json
  features := readFeatures json

/-- The lines up to the first ready banner. -/
def readLines
    (parseAddress : String → Option Address) :
    List WorkerLine → Except String (WorkerBanner Address)
  | [] => .ok initial
  | .json value :: rest =>
      if isReady value then .ok (read parseAddress value)
      else readLines parseAddress rest
  | .text _ :: rest => readLines parseAddress rest
  | .failed error :: _ => .error error

/-- The checks of a banner; `none` is a worker that did not get ready. -/
def check (banner : WorkerBanner Address) :
    Except String (Option (WorkerBanner Address)) :=
  if banner.udpPort ≠ 0 ∧ banner.remoteThumbprint ≠ "" then
    match banner.protocolVersion with
    | some version =>
        if version < minSupportedProtocolVersion then
          .error
            ("Remote worker protocol version " ++ toString version ++
              " is incompatible (minimum supported: " ++
              toString minSupportedProtocolVersion ++
              "). Update the remote worker.")
        else if currentProtocolVersion < version then
          .error
            ("Remote worker protocol version " ++ toString version ++
              " is newer than client supported version " ++
              toString currentProtocolVersion ++ ". Update the client.")
        else .ok (some banner)
    | none => .ok (some banner)
  else .ok none

def notReady (output : WorkerOutput) : String :=
  if trim output.stderr = "" then
    "Failed to obtain ready state from remote worker"
  else
    "Failed to obtain ready state from remote worker: " ++
      trim output.stderr

/-- One pass of the loop of `bootstrap_remote_worker`; `next` is what comes
after a worker that did not get ready. -/
def settle
    (parseAddress : String → Option Address) (output : WorkerOutput)
    (next : Except String (WorkerBanner Address)) :
    Except String (WorkerBanner Address) :=
  match readLines parseAddress output.lines with
  | .error error => .error error
  | .ok banner =>
      match check banner with
      | .error error => .error error
      | .ok (some ready) => .ok ready
      | .ok none => next

/-- The worker that was started and, where that is a managed one that does not
get ready, the installed one. -/
def await
    (parseAddress : String → Option Address) (output : WorkerOutput)
    (installed : Option WorkerOutput) :
    Except String (WorkerBanner Address) :=
  settle parseAddress output
    (match installed with
    | some other =>
        settle parseAddress other (.error (notReady other))
    | none => .error (notReady output))

end WorkerBanner

/-- The first ready banner. -/
def firstBanner : List WorkerLine → Option JsonValue
  | [] => none
  | .json value :: rest =>
      if WorkerBanner.isReady value then some value else firstBanner rest
  | .text _ :: rest => firstBanner rest
  | .failed _ :: _ => none

/-- What the worker that is used should have said about itself. -/
structure ValidBanner {Address : Type}
    (json : JsonValue) (ready : WorkerBanner Address) : Prop where
  port :
    json.get "udp_port" = some (.integer ready.udpPort) ∧
      1 ≤ ready.udpPort ∧ ready.udpPort ≤ 65535
  thumbprint :
    json.get "thumbprint" = some (.string ready.remoteThumbprint) ∧
      ready.remoteThumbprint ≠ ""
  version :
    (json.get "protocol_version" = none ∧
        ∀ feature, ready.hasFeature feature = true ↔
          feature = featureChecksum ∨ feature = featureResume) ∨
      ∃ version : Nat,
        json.get "protocol_version" = some (.integer version) ∧
          minSupportedProtocolVersion ≤ version ∧
            version ≤ currentProtocolVersion

/-- The port and the version are not changed by the conversions to 16 and 32
bits, and a version that is there is an integer. -/
structure NarrowBanner (json : JsonValue) : Prop where
  port :
    ∃ port : Nat,
      json.get "udp_port" = some (.integer port) ∧ port < 2 ^ 16
  version :
    json.get "protocol_version" = none ∨
      ∃ version : Nat,
        json.get "protocol_version" = some (.integer version) ∧
          version < 2 ^ 32

/-- The port or the thumbprint is missing, or the version is out of range, in
what the conversions leave of them. -/
def RefusedBanner (json : JsonValue) : Prop :=
  WorkerBanner.readPort json = 0 ∨ WorkerBanner.readThumbprint json = "" ∨
    ∃ version, WorkerBanner.readVersion json = some version ∧
      (version < minSupportedProtocolVersion ∨
        currentProtocolVersion < version)

namespace WorkerBanner

variable {Address : Type} {parseAddress : String → Option Address}

theorem readLines_of_banner
    {lines : List WorkerLine} {json : JsonValue}
    (isFirst : firstBanner lines = some json) :
    readLines parseAddress lines = .ok (read parseAddress json) := by
  induction lines with
  | nil => cases isFirst
  | cons line rest inductionHypothesis =>
      cases line with
      | json value =>
          rw [firstBanner] at isFirst
          rw [readLines]
          split at isFirst
          · rename_i ready
            rw [if_pos ready, Option.some.inj isFirst]
          · rename_i notReady
            rw [if_neg notReady, inductionHypothesis isFirst]
      | text _ => exact inductionHypothesis isFirst
      | failed _ => cases isFirst

theorem readLines_without_banner
    {lines : List WorkerLine} {banner : WorkerBanner Address}
    (isNone : firstBanner lines = none)
    (succeeds : readLines parseAddress lines = .ok banner) :
    banner = initial := by
  induction lines with
  | nil => exact (Except.ok.inj succeeds).symm
  | cons line rest inductionHypothesis =>
      cases line with
      | json value =>
          rw [firstBanner] at isNone
          rw [readLines] at succeeds
          split at isNone
          · cases isNone
          · rename_i notReady
            rw [if_neg notReady] at succeeds
            exact inductionHypothesis isNone succeeds
      | text _ => exact inductionHypothesis isNone succeeds
      | failed _ => cases succeeds

theorem check_eq_ok {banner ready : WorkerBanner Address} :
    check banner = .ok (some ready) ↔
      (banner.udpPort ≠ 0 ∧ banner.remoteThumbprint ≠ "") ∧
        (∀ version, banner.protocolVersion = some version →
          minSupportedProtocolVersion ≤ version ∧
            version ≤ currentProtocolVersion) ∧
        ready = banner := by
  unfold check
  by_cases filled :
      banner.udpPort ≠ 0 ∧ banner.remoteThumbprint ≠ ""
  · rw [if_pos filled]
    cases banner.protocolVersion with
    | none => simp [filled, eq_comm]
    | some version =>
        by_cases old : version < minSupportedProtocolVersion
        · simp [old]
        · by_cases new : currentProtocolVersion < version
          · simp [old, new]
          · simp [old, new, filled, eq_comm, Nat.le_of_not_lt]
  · rw [if_neg filled]
    simp [filled]

theorem check_read
    {json : JsonValue} {ready : WorkerBanner Address} :
    check (read parseAddress json) = .ok (some ready) ↔
      ¬ RefusedBanner json ∧ ready = read parseAddress json := by
  rw [check_eq_ok, ← and_assoc]
  refine and_congr_left fun _ => ?_
  unfold RefusedBanner
  rw [not_or, not_or, and_assoc]
  refine and_congr_right fun _ => and_congr_right fun _ => ?_
  constructor
  · rintro inRange ⟨version, isVersion, outside⟩
    obtain ⟨atLeast, atMost⟩ := inRange version isVersion
    omega
  · intro notOutside version isVersion
    by_contra outside
    exact notOutside ⟨version, isVersion, by omega⟩

theorem settle_of_banner
    {output : WorkerOutput} {next : Except String (WorkerBanner Address)}
    {json : JsonValue} (isFirst : firstBanner output.lines = some json)
    (notRefused : ¬ RefusedBanner json) :
    settle parseAddress output next = .ok (read parseAddress json) := by
  unfold settle
  rw [readLines_of_banner isFirst]
  simp only [check_read.mpr ⟨notRefused, rfl⟩]

/-- A banner that is taken is the first one of its worker. -/
theorem settle_eq_ok
    {output : WorkerOutput} {next : Except String (WorkerBanner Address)}
    {ready : WorkerBanner Address}
    (succeeds : settle parseAddress output next = .ok ready) :
    (∃ json, firstBanner output.lines = some json ∧
        ¬ RefusedBanner json ∧ ready = read parseAddress json) ∨
      next = .ok ready := by
  unfold settle at succeeds
  cases isFirst : firstBanner output.lines with
  | none =>
      right
      cases isRead : readLines parseAddress output.lines with
      | error error =>
          rw [isRead] at succeeds
          cases succeeds
      | ok banner =>
          have isInitial := readLines_without_banner isFirst isRead
          rw [isRead, isInitial] at succeeds
          exact succeeds
  | some json =>
      rw [readLines_of_banner isFirst] at succeeds
      cases isChecked : check (read parseAddress json) with
      | error error =>
          simp only [isChecked] at succeeds
          cases succeeds
      | ok result =>
          simp only [isChecked] at succeeds
          cases result with
          | none => exact Or.inr succeeds
          | some taken =>
              left
              obtain rfl := Except.ok.inj succeeds
              exact ⟨json, rfl, check_read.mp isChecked⟩

/-- Without a second worker, the first ready banner is taken unless it is
refused. -/
theorem await_eq_ok
    (output : WorkerOutput) (ready : WorkerBanner Address) :
    await parseAddress output none = .ok ready ↔
      ∃ json, firstBanner output.lines = some json ∧
        ¬ RefusedBanner json ∧ ready = read parseAddress json := by
  constructor
  · intro succeeds
    rcases settle_eq_ok succeeds with taken | later
    · exact taken
    · cases later
  · rintro ⟨json, isFirst, notRefused, rfl⟩
    exact settle_of_banner isFirst notRefused

/-- With a second worker, the banner is that of one of the two. -/
theorem await_installed
    {output other : WorkerOutput} {ready : WorkerBanner Address}
    (succeeds : await parseAddress output (some other) = .ok ready) :
    await parseAddress output none = .ok ready ∨
      await parseAddress other none = .ok ready := by
  rcases settle_eq_ok succeeds with taken | later
  · exact Or.inl ((await_eq_ok output ready).mpr taken)
  · exact Or.inr later

theorem asU64_natCast {value : Nat} (fits : value < 2 ^ 64) :
    (JsonValue.integer value).asU64 = some value := by
  have inRange : (0 : Int) ≤ value ∧ (value : Int) < 2 ^ 64 := by
    constructor <;> omega
  rw [JsonValue.asU64, if_pos inRange, Int.toNat_natCast]

theorem readPort_of_narrow
    {json : JsonValue} {port : Nat}
    (isPort : json.get "udp_port" = some (.integer port))
    (narrow : port < 2 ^ 16) : readPort json = port := by
  have fits : port < 2 ^ 64 := by omega
  rw [readPort, isPort, Option.bind_some, asU64_natCast fits]
  exact Nat.mod_eq_of_lt narrow

theorem readVersion_of_narrow
    {json : JsonValue} {version : Nat}
    (isVersion : json.get "protocol_version" = some (.integer version))
    (narrow : version < 2 ^ 32) : readVersion json = some version := by
  have fits : version < 2 ^ 64 := by omega
  rw [readVersion, isVersion, Option.bind_some, asU64_natCast fits,
    Option.map_some, Nat.mod_eq_of_lt narrow]

theorem readThumbprint_of_ne
    {json : JsonValue} (notEmpty : readThumbprint json ≠ "") :
    json.get "thumbprint" = some (.string (readThumbprint json)) := by
  unfold readThumbprint at notEmpty ⊢
  cases field : json.get "thumbprint" with
  | none =>
      rw [field] at notEmpty
      exact absurd rfl notEmpty
  | some value =>
      rw [field] at notEmpty
      cases value with
      | string text => rfl
      | _ => exact absurd rfl notEmpty

/-- Without a version the worker is taken for an old one. -/
theorem hasFeature_legacy
    {json : JsonValue} (absent : json.get "protocol_version" = none)
    (feature : String) :
    (read parseAddress json).hasFeature feature = true ↔
      feature = featureChecksum ∨ feature = featureResume := by
  have noVersion : readVersion json = none := by
    rw [readVersion, absent]
    rfl
  simp [hasFeature, read, noVersion]

theorem validBanner_read
    {json : JsonValue} (notRefused : ¬ RefusedBanner json) :
    ValidBanner json (read parseAddress json) ↔ NarrowBanner json := by
  unfold RefusedBanner at notRefused
  rw [not_or, not_or] at notRefused
  obtain ⟨hasPort, hasThumbprint, inRange⟩ := notRefused
  constructor
  · rintro ⟨⟨isPort, _, atMost⟩, _, version⟩
    refine ⟨⟨_, isPort, by omega⟩, ?_⟩
    rcases version with ⟨absent, _⟩ | ⟨version, isVersion, _, few⟩
    · exact Or.inl absent
    · right
      refine ⟨version, isVersion, ?_⟩
      rw [currentProtocolVersion] at few
      omega
  · rintro ⟨⟨port, isPort, narrowPort⟩, version⟩
    have samePort := readPort_of_narrow isPort narrowPort
    refine
      ⟨⟨?_, ?_, ?_⟩, ⟨readThumbprint_of_ne hasThumbprint, hasThumbprint⟩,
        ?_⟩
    · rw [read, samePort]
      exact isPort
    · rw [samePort] at hasPort
      simp only [read, samePort]
      omega
    · simp only [read, samePort]
      omega
    · rcases version with absent | ⟨version, isVersion, narrow⟩
      · exact Or.inl ⟨absent, hasFeature_legacy absent⟩
      · right
        have isRead := readVersion_of_narrow isVersion narrow
        refine ⟨version, isVersion, ?_, ?_⟩
        · by_contra old
          exact inRange ⟨version, isRead, by omega⟩
        · by_contra new
          exact inRange ⟨version, isRead, by omega⟩

/-- Every banner that is taken is as the checks want it if and only if the
first ready banner is refused, or has a port of 16 bits and no version or one
of 32 bits. -/
theorem banner_validated_exactly
    (parseAddress : String → Option Address) (output : WorkerOutput) :
    (∀ ready, await parseAddress output none = .ok ready →
      ∃ json, firstBanner output.lines = some json ∧
        ValidBanner json ready) ↔
      ∀ json, firstBanner output.lines = some json →
        RefusedBanner json ∨ NarrowBanner json := by
  constructor
  · intro valid json isFirst
    by_cases refused : RefusedBanner json
    · exact Or.inl refused
    · right
      obtain ⟨other, isOther, isValid⟩ :=
        valid _ ((await_eq_ok output _).mpr ⟨json, isFirst, refused, rfl⟩)
      rw [isFirst] at isOther
      obtain rfl := Option.some.inj isOther
      exact (validBanner_read refused).mp isValid
  · intro condition ready taken
    obtain ⟨json, isFirst, notRefused, rfl⟩ :=
      (await_eq_ok output ready).mp taken
    refine ⟨json, isFirst, (validBanner_read notRefused).mpr ?_⟩
    exact (condition json isFirst).resolve_left notRefused

/-- A banner whose port does not fit, with a version that does not fit
either. -/
def wideBanner : JsonValue :=
  .object
    [("status", .string "ready"), ("udp_port", .integer (2 ^ 16 + 1)),
      ("thumbprint", .string "0123456789ABCDEF0123456789ABCDEF01234567"),
      ("protocol_version", .integer (2 ^ 32 + 1))]

/-- It is taken for port 1 and version 1. -/
theorem wide_banner_taken :
    ¬ ∀ (output : WorkerOutput) (ready : WorkerBanner Unit),
      await (fun _ => none) output none = .ok ready →
        ∃ json, firstBanner output.lines = some json ∧
          ValidBanner json ready := by
  intro always
  obtain ⟨json, isFirst, valid⟩ :=
    always ⟨[.json wideBanner], ""⟩ _ rfl
  have same : wideBanner = json := Option.some.inj isFirst
  have isPort := valid.port.1
  rw [← same] at isPort
  cases isPort

end WorkerBanner

end Quiczilla
