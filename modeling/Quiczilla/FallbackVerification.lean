import Quiczilla.Foundation.Sha256
import Quiczilla.SshFallback

/-!
# The checksum of the SSH fallback

`run_ssh_fallback` copies the file into `cat` on the remote and, when a
checksum was requested, asks the remote for the hash of what `cat` wrote.  What
ssh and the file systems answer is the input of the model; it ends in the
result that the CLI turns into its exit code.
-/

namespace Quiczilla

open Foundation

/-! ## What the outside answers -/

/-- One pass of the send loop: what `read` gives, and the error of the
`write_all` that follows. -/
inductive SendPass where
  | readFailed (error : String)
  | read (chunk : List UInt8) (writeError : Option String)
  deriving DecidableEq, Repr

/-- An exit status, with its text. -/
structure ExitStatus where
  success : Bool
  text : String
  deriving DecidableEq, Repr

structure ProcessOutput where
  status : ExitStatus
  stdout : List UInt8
  deriving DecidableEq, Repr

/-- What becomes of the commands.  An error of `spawn` or `wait` has no text
here because `context` replaces it. -/
structure FallbackSession where
  spawns : String → Bool
  givesStdin : Bool
  openError : Option String
  passes : List SendPass
  wait : Option ExitStatus
  /-- `output` of the command line, if it runs at all. -/
  output : String → Option ProcessOutput

structure FallbackRequest where
  remoteDir : String
  fileName : String
  checksumRequested : Bool
  json : Bool
  deriving DecidableEq, Repr

/-! ## The transfer -/

structure SendProgress where
  sent : Nat
  hasher : Option (List UInt8)
  deriving DecidableEq, Repr

def sendLoop (progress : SendProgress) :
    List SendPass → Except String SendProgress
  | [] => .ok progress
  | .readFailed error :: _ => .error error
  | .read chunk writeError :: rest =>
      if chunk = [] then .ok progress
      else
        match writeError with
        | some error => .error error
        | none =>
            sendLoop
              { sent := progress.sent + chunk.length
                hasher := progress.hasher.map (· ++ chunk) }
              rest

/-- `wait` for the process. -/
def FallbackSession.waited
    (session : FallbackSession) : Except String Unit :=
  match session.wait with
  | none => .error "Failed waiting for SSH fallback transfer"
  | some status =>
      if status.success then .ok ()
      else .error ("SSH fallback exited with " ++ status.text)

/-- The process that is fed, up to its exit. -/
def FallbackSession.transfer
    (session : FallbackSession) (request : FallbackRequest) :
    Except String SendProgress := do
  if !session.spawns
      (fallbackCommand request.remoteDir request.fileName) then
    throw "Failed to start SSH fallback transfer"
  if !session.givesStdin then
    throw "SSH fallback did not provide stdin"
  if let some error := session.openError then
    throw error
  let progress ←
    sendLoop
      { sent := 0
        hasher := if request.checksumRequested then some [] else none }
      session.passes
  session.waited
  return progress

/-! ## The check -/

def checkCommand (request : FallbackRequest) : String :=
  "sha256sum -- " ++
    shellQuote (fallbackPath request.remoteDir request.fileName)

/-- `split_whitespace().next()`. -/
def firstWord (text : String) : Option String :=
  match (text.toList.dropWhile isWhitespace).takeWhile
      fun character => !isWhitespace character with
  | [] => none
  | word => some (String.ofList word)

/-- The hash that the remote reports. -/
def FallbackSession.remoteHash
    (session : FallbackSession) (request : FallbackRequest) :
    Option String :=
  ((session.output (checkCommand request)).filter
      fun output => output.status.success).bind fun output =>
    (String.fromUTF8? ⟨output.stdout.toArray⟩).bind firstWord

def FallbackSession.verified
    (session : FallbackSession) (request : FallbackRequest)
    (hasher : Option (List UInt8)) : Bool :=
  match hasher with
  | some bytes =>
      match session.remoteHash request with
      | some remoteHash =>
          eqIgnoreAsciiCase remoteHash (sha256Hex bytes)
      | none => false
  | none => false

/-! ## The result -/

/-- The JSON receipt, without its durations. -/
structure TransferReceipt where
  status : String
  file : String
  bytes : Nat
  transport : String
  integrity : String
  verified : Bool
  deriving DecidableEq, Repr

def emitJsonReceipt
    (enabled : Bool) (fileName : String) (bytes : Nat)
    (transport : String) (checksumVerified : Bool) :
    Option TransferReceipt :=
  if enabled then
    some
      { status := "completed"
        file := fileName
        bytes := bytes
        transport := transport
        integrity := if checksumVerified then "sha256" else "none"
        verified := checksumVerified }
  else none

/-- What the renderer shows as completed, and the receipt. -/
structure FallbackReport where
  fileName : String
  sent : Nat
  verified : Bool
  receipt : Option TransferReceipt
  deriving DecidableEq, Repr

def runSshFallback
    (request : FallbackRequest) (session : FallbackSession) :
    Except String FallbackReport := do
  let progress ← session.transfer request
  let verified := session.verified request progress.hasher
  return {
    fileName := request.fileName
    sent := progress.sent
    verified := verified
    receipt :=
      emitJsonReceipt request.json request.fileName progress.sent
        "ssh-fallback" (request.checksumRequested && verified) }

/-- The exit code of the CLI after a fallback. -/
def fallbackExitCode (result : Except String FallbackReport) : Nat :=
  match result with
  | .ok _ => 0
  | .error _ => 1

/-! ## What a transfer sends -/

/-- No read and no write fails before the end of the file. -/
def passesSucceed : List SendPass → Bool
  | [] => true
  | .readFailed _ :: _ => false
  | .read chunk writeError :: rest =>
      chunk.isEmpty || (writeError.isNone && passesSucceed rest)

/-- The bytes before the end of the file. -/
def passesBytes : List SendPass → List UInt8
  | [] => []
  | .readFailed _ :: _ => []
  | .read chunk _ :: rest =>
      if chunk = [] then [] else chunk ++ passesBytes rest

/-- Every step of the transfer succeeds, up to the exit of ssh. -/
structure FallbackSession.Transfers
    (session : FallbackSession) (request : FallbackRequest) : Prop where
  spawns :
    session.spawns (fallbackCommand request.remoteDir request.fileName) =
      true
  givesStdin : session.givesStdin = true
  opens : session.openError = none
  sends : passesSucceed session.passes = true
  exits : ∃ status, session.wait = some status ∧ status.success = true

/-- The remote reports the hash of the bytes that were sent. -/
def FallbackSession.Matches
    (session : FallbackSession) (request : FallbackRequest) : Prop :=
  ∃ remoteHash, session.remoteHash request = some remoteHash ∧
    eqIgnoreAsciiCase remoteHash
        (sha256Hex (passesBytes session.passes)) =
      true

/-- A requested checksum decides over success. -/
def HonoursChecksum
    (request : FallbackRequest) (session : FallbackSession) : Prop :=
  request.checksumRequested = true →
    fallbackExitCode (runSshFallback request session) = 0 →
      session.Matches request

section Transfer

variable {request : FallbackRequest} {session : FallbackSession}

theorem sendLoop_eq_ok
    (progress final : SendProgress) (passes : List SendPass) :
    sendLoop progress passes = .ok final ↔
      passesSucceed passes = true ∧
        final =
          { sent := progress.sent + (passesBytes passes).length
            hasher := progress.hasher.map (· ++ passesBytes passes) } := by
  induction passes generalizing progress with
  | nil =>
      simp [sendLoop, passesSucceed, passesBytes, eq_comm]
  | cons pass rest inductionHypothesis =>
      cases pass with
      | readFailed error => simp [sendLoop, passesSucceed]
      | read chunk writeError =>
          by_cases atEnd : chunk = []
          · simp [sendLoop, passesSucceed, passesBytes, atEnd, eq_comm]
          · cases writeError with
            | some error => simp [sendLoop, passesSucceed, atEnd]
            | none =>
                simp only [sendLoop, inductionHypothesis,
                  passesSucceed, passesBytes, Option.isNone_none,
                  Bool.true_and, Bool.or_eq_true, List.isEmpty_iff,
                  atEnd, if_false, false_or, List.length_append,
                  Option.map_map,
                  Function.comp_def, List.append_assoc, Nat.add_assoc]

theorem waited_eq_ok :
    session.waited = .ok () ↔
      ∃ status, session.wait = some status ∧ status.success = true := by
  unfold FallbackSession.waited
  cases session.wait with
  | none => simp
  | some status => cases success : status.success <;> simp [success]

theorem transfer_eq_ok (progress : SendProgress) :
    session.transfer request = .ok progress ↔
      session.Transfers request ∧
        progress =
          { sent := (passesBytes session.passes).length
            hasher :=
              if request.checksumRequested then
                some (passesBytes session.passes)
              else none } := by
  have hashed :
      (if request.checksumRequested = true then some [] else none).map
          (· ++ passesBytes session.passes) =
        if request.checksumRequested = true then
          some (passesBytes session.passes)
        else none := by
    split <;> rfl
  constructor
  · intro succeeds
    unfold FallbackSession.transfer at succeeds
    cases spawns :
        session.spawns
          (fallbackCommand request.remoteDir request.fileName) with
    | false =>
        rw [spawns] at succeeds
        cases succeeds
    | true =>
        cases givesStdin : session.givesStdin with
        | false =>
            rw [spawns, givesStdin] at succeeds
            cases succeeds
        | true =>
            cases opens : session.openError with
            | some error =>
                rw [spawns, givesStdin, opens] at succeeds
                cases succeeds
            | none =>
                rw [spawns, givesStdin, opens] at succeeds
                cases looped :
                    sendLoop
                      { sent := 0
                        hasher :=
                          if request.checksumRequested then some []
                          else none }
                      session.passes with
                | error error =>
                    rw [looped] at succeeds
                    cases succeeds
                | ok final =>
                    rw [looped] at succeeds
                    obtain ⟨sends, isFinal⟩ :=
                      (sendLoop_eq_ok _ _ _).mp looped
                    rw [hashed, Nat.zero_add] at isFinal
                    cases waits : session.waited with
                    | error error =>
                        rw [waits] at succeeds
                        cases succeeds
                    | ok =>
                        rw [waits] at succeeds
                        cases succeeds
                        exact
                          ⟨⟨spawns, givesStdin, opens, sends,
                              waited_eq_ok.mp waits⟩, isFinal⟩
  · rintro ⟨⟨spawns, givesStdin, opens, sends, exits⟩, rfl⟩
    have looped :=
      (sendLoop_eq_ok
        { sent := 0
          hasher := if request.checksumRequested then some [] else none }
        _ session.passes).mpr ⟨sends, rfl⟩
    have waits := waited_eq_ok.mpr exits
    rw [hashed, Nat.zero_add] at looped
    rw [FallbackSession.transfer, spawns, givesStdin, opens, looped,
      waits]
    rfl

/-- The check has no say in the result. -/
theorem exitCode_eq_zero :
    fallbackExitCode (runSshFallback request session) = 0 ↔
      session.Transfers request := by
  unfold runSshFallback
  cases transferred : session.transfer request with
  | error error =>
      constructor
      · intro isZero
        cases isZero
      · intro transfers
        have succeeds := (transfer_eq_ok _).mpr ⟨transfers, rfl⟩
        rw [transferred] at succeeds
        cases succeeds
  | ok progress =>
      constructor
      · intro _
        exact ((transfer_eq_ok progress).mp transferred).1
      · intro _
        rfl

theorem verified_eq_true :
    session.verified request
        (if request.checksumRequested then
          some (passesBytes session.passes)
        else none) =
          true ↔
      request.checksumRequested = true ∧ session.Matches request := by
  unfold FallbackSession.verified FallbackSession.Matches
  cases request.checksumRequested with
  | false => simp
  | true => cases session.remoteHash request <;> simp

/-- What is shown as verified was reported by the remote, and hashes the bytes
that were sent. -/
theorem verified_of_report
    {report : FallbackReport}
    (result : runSshFallback request session = .ok report) :
    report.sent = (passesBytes session.passes).length ∧
      (report.verified = true ↔
        request.checksumRequested = true ∧ session.Matches request) ∧
      ∀ receipt, report.receipt = some receipt →
        receipt.bytes = report.sent ∧
          (receipt.verified = true ↔ report.verified = true) := by
  unfold runSshFallback at result
  cases transferred : session.transfer request with
  | error error =>
      rw [transferred] at result
      cases result
  | ok progress =>
      rw [transferred] at result
      obtain ⟨_, isProgress⟩ := (transfer_eq_ok progress).mp transferred
      obtain rfl := (Except.ok.inj result).symm
      have isVerified :
          session.verified request progress.hasher = true ↔
            request.checksumRequested = true ∧
              session.Matches request := by
        rw [isProgress]
        exact verified_eq_true
      refine ⟨by rw [isProgress], isVerified, ?_⟩
      intro receipt isReceipt
      simp only [emitJsonReceipt] at isReceipt
      split at isReceipt
      · obtain rfl := (Option.some.inj isReceipt).symm
        refine ⟨rfl, ?_⟩
        rw [Bool.and_eq_true]
        exact ⟨And.right, fun verified =>
          ⟨(isVerified.mp verified).1, verified⟩⟩
      · cases isReceipt

/-- A requested checksum decides over success exactly when it agrees or the
transfer itself fails. -/
theorem fallback_honours_checksum_exactly
    (request : FallbackRequest) (session : FallbackSession) :
    HonoursChecksum request session ↔
      request.checksumRequested = false ∨
        ¬ session.Transfers request ∨ session.Matches request := by
  unfold HonoursChecksum
  rw [exitCode_eq_zero]
  by_cases requested : request.checksumRequested = true
  · simp only [requested, true_imp_iff, Bool.true_eq_false, false_or]
    exact imp_iff_not_or
  · simp [requested]

end Transfer

/-- An empty file that arrives, while the remote has no `sha256sum`. -/
def uncheckedSession : FallbackSession where
  spawns := fun _ => true
  givesStdin := true
  openError := none
  passes := []
  wait := some ⟨true, "exit status: 0"⟩
  output := fun _ => some ⟨⟨false, "exit status: 127"⟩, []⟩

/-- A requested checksum that nobody could compute ends in exit code 0. -/
theorem unchecked_fallback_succeeds :
    ¬ ∀ (request : FallbackRequest) (session : FallbackSession),
      HonoursChecksum request session := by
  intro always
  have matched :=
    always ⟨"docs", "f", true, false⟩ uncheckedSession rfl rfl
  obtain ⟨remoteHash, isHash, _⟩ := matched
  cases isHash

end Quiczilla
