import Mathlib.Logic.Function.Basic
import Quiczilla.Foundation.Runs
import Quiczilla.Thumbprints

/-!
# Ephemeral identities in a shared directory

Without the static identity files, `build_quic_config` writes the certificate
and the key that it generated to two files of fixed names in the temporary
directory and has MsQuic load them from there.  Any number of calls share the
directory, and their steps interleave freely.

The history variable records who wrote either file last and whether every load
that succeeded was one of the loader's own files.
-/

namespace Quiczilla

open Foundation

/-- What the calls have from outside: the identity that `rcgen` generates for
each of them, whether `ConfigurationLoadCredential` accepts two files, and the
certificate that a configuration with such a file presents. -/
structure IdentityTools (Caller : Type) where
  certDer : Caller → List UInt8
  certPem : Caller → List UInt8
  keyPem : Caller → List UInt8
  accepts : List UInt8 → List UInt8 → Bool
  presented : List UInt8 → List UInt8

/-- What `ConfigurationLoadCredential` has read. -/
structure MsQuicConfiguration where
  certificate : List UInt8
  key : List UInt8
  deriving DecidableEq, Repr

/-- The identity files under `/tmp`, with the text of the file that names the
thumbprint. -/
structure StaticIdentity where
  certificate : List UInt8
  key : List UInt8
  thumbprint : Option String
  deriving DecidableEq, Repr

structure TempDir where
  staticIdentity : Option StaticIdentity
  certificate : Option (List UInt8)
  key : Option (List UInt8)
  deriving DecidableEq, Repr

/-- Where a call of `build_quic_config` is. -/
inductive IdentityCall where
  | entered
  | generated
  | certificateWritten
  | keyWritten
  | failed
  | returned (thumbprint : String) (config : MsQuicConfiguration)
  deriving DecidableEq, Repr

structure IdentityCalls (Caller : Type) where
  directory : TempDir
  calls : Caller → IdentityCall

/-- The steps of a call.  A write that fails may leave the first bytes. -/
inductive IdentityStep where
  | enter
  | enterFails
  | writeCertificate (written : Option Nat)
  | writeKey (written : Option Nat)
  | load (opens : Bool)
  deriving DecidableEq, Repr

section Calls

variable {Caller : Type} [DecidableEq Caller]

def IdentityCalls.become
    (state : IdentityCalls Caller) (caller : Caller) (call : IdentityCall) :
    IdentityCalls Caller :=
  { state with calls := Function.update state.calls caller call }

def IdentityCalls.withDirectory
    (state : IdentityCalls Caller) (directory : TempDir) :
    IdentityCalls Caller :=
  { state with directory := directory }

def defaultStaticThumbprint : String :=
  "94510B2219EB97320BDE08C6FE9A06F4917F3E2A"

/-- `engine.create_configuration` on two files. -/
def IdentityTools.createConfiguration
    (tools : IdentityTools Caller) (opens : Bool)
    (certificate key : Option (List UInt8)) :
    Option MsQuicConfiguration :=
  match opens, certificate, key with
  | true, some certificate, some key =>
      if tools.accepts certificate key then some ⟨certificate, key⟩
      else none
  | _, _, _ => none

/-- The outcome of a call whose configuration was made, or not. -/
def IdentityCall.finish
    (thumbprint : String) : Option MsQuicConfiguration → IdentityCall
  | some config => .returned thumbprint config
  | none => .failed

/-- The beginning of a call: the static identity is used where there is one,
and otherwise a new one is generated. -/
def enterCall
    (tools : IdentityTools Caller) (state : IdentityCalls Caller)
    (caller : Caller) : IdentityCalls Caller :=
  match state.directory.staticIdentity with
  | some identity =>
      state.become caller
        (.finish
          (trim (identity.thumbprint.getD defaultStaticThumbprint))
          (tools.createConfiguration true (some identity.certificate)
            (some identity.key)))
  | none => state.become caller .generated

/-- `std::fs::write`, and the phase behind it. -/
def writtenBytes (content : List UInt8) : Option Nat → List UInt8
  | some count => content.take count
  | none => content

def afterWrite (next : IdentityCall) : Option Nat → IdentityCall
  | some _ => .failed
  | none => next

def identityStep
    (table : Uppercase) (tools : IdentityTools Caller)
    (state : IdentityCalls Caller) (label : Caller × IdentityStep) :
    Option (IdentityCalls Caller) :=
  match state.calls label.1, label.2 with
  | .entered, .enter => some (enterCall tools state label.1)
  | .entered, .enterFails => some (state.become label.1 .failed)
  | .generated, .writeCertificate written =>
      some
        ((state.withDirectory
              { state.directory with
                certificate :=
                  some (writtenBytes (tools.certPem label.1) written) }).become
          label.1 (afterWrite .certificateWritten written))
  | .certificateWritten, .writeKey written =>
      some
        ((state.withDirectory
              { state.directory with
                key :=
                  some (writtenBytes (tools.keyPem label.1) written) }).become
          label.1 (afterWrite .keyWritten written))
  | .keyWritten, .load opens =>
      some
        (state.become label.1
          (.finish (computeThumbprint table (tools.certDer label.1))
            (tools.createConfiguration opens state.directory.certificate
              state.directory.key)))
  | _, _ => none

/-- Who wrote either file last, and whether every call that returned had
loaded files that it was the last to write. -/
structure WriteHistory (Caller : Type) where
  certificateWriter : Option Caller
  keyWriter : Option Caller
  ownLoads : Bool
  deriving DecidableEq, Repr

def WriteHistory.start : WriteHistory Caller := ⟨none, none, true⟩

def WriteHistory.afterLoad
    (history : WriteHistory Caller) (caller : Caller) :
    IdentityCall → WriteHistory Caller
  | .returned _ _ =>
      { history with
        ownLoads :=
          history.ownLoads &&
            decide
              (history.certificateWriter = some caller ∧
                history.keyWriter = some caller) }
  | _ => history

def noteWrites (_ : IdentityCalls Caller) (label : Caller × IdentityStep)
    (next : IdentityCalls Caller) (history : WriteHistory Caller) :
    WriteHistory Caller :=
  match label.2 with
  | .writeCertificate _ =>
      { history with certificateWriter := some label.1 }
  | .writeKey _ => { history with keyWriter := some label.1 }
  | .load _ => history.afterLoad label.1 (next.calls label.1)
  | _ => history

def watchedIdentities (table : Uppercase) (tools : IdentityTools Caller) :
    IdentityCalls Caller × WriteHistory Caller →
      Caller × IdentityStep →
      Option (IdentityCalls Caller × WriteHistory Caller) :=
  withHistory (identityStep table tools) noteWrites

/-- Any number of calls before their first steps, and whatever earlier
processes left in the directory. -/
def IdentityCalls.initial (directory : TempDir) :
    IdentityCalls Caller × WriteHistory Caller :=
  (⟨directory, fun _ => .entered⟩, .start)

/-- What a call should have loaded. -/
def IdentityTools.identity
    (tools : IdentityTools Caller) (caller : Caller) :
    MsQuicConfiguration :=
  ⟨tools.certPem caller, tools.keyPem caller⟩

/-- No call's file begins with the file of another. -/
def IdentityTools.Distinct (tools : IdentityTools Caller) : Prop :=
  ∀ first second,
    tools.certPem first <+: tools.certPem second ∨
        tools.keyPem first <+: tools.keyPem second →
      first = second

/-- Every call that returned has its own identity, and the thumbprint is that
of the certificate presented. -/
def IdentitiesKept (table : Uppercase) (tools : IdentityTools Caller)
    (state : IdentityCalls Caller) : Prop :=
  ∀ caller thumbprint config,
    state.calls caller = .returned thumbprint config →
      config = tools.identity caller ∧
        thumbprint =
          computeThumbprint table (tools.presented config.certificate)

def IdentityCall.awaitsCertificate : IdentityCall → Prop
  | .certificateWritten | .keyWritten => True
  | _ => False

def IdentityCall.awaitsKey : IdentityCall → Prop
  | .keyWritten => True
  | _ => False

def IdentityCall.hasReturned : IdentityCall → Prop
  | .returned _ _ => True
  | _ => False

end Calls

section Files

variable {Caller : Type}

/-- One of the two files: it holds what its last writer wrote of it, and where
a call that wrote all of it waits to load it, somebody was the last writer. -/
structure FileTracked
    (pem : Caller → List UInt8) (awaits : Caller → Prop)
    (writer : Option Caller) (content : Option (List UInt8)) : Prop where
  holds :
    ∀ caller, writer = some caller →
      ∃ bytes, content = some bytes ∧ bytes <+: pem caller ∧
        (awaits caller → bytes = pem caller)
  written : ∀ caller, awaits caller → ∃ last, writer = some last

theorem writtenBytes_prefix (content : List UInt8) (written : Option Nat) :
    writtenBytes content written <+: content := by
  cases written with
  | none => exact List.prefix_refl content
  | some count => exact List.take_prefix count content

theorem FileTracked.start (pem : Caller → List UInt8)
    {awaits : Caller → Prop} (nobody : ∀ caller, ¬ awaits caller)
    (content : Option (List UInt8)) :
    FileTracked pem awaits none content where
  holds := by
    intro caller isWriter
    cases isWriter
  written := by
    intro caller waits
    exact absurd waits (nobody caller)

/-- Calls may stop waiting at any time. -/
theorem FileTracked.narrow
    {pem : Caller → List UInt8} {awaits fewer : Caller → Prop}
    {writer : Option Caller} {content : Option (List UInt8)}
    (tracked : FileTracked pem awaits writer content)
    (fewerWait : ∀ caller, fewer caller → awaits caller) :
    FileTracked pem fewer writer content where
  holds := by
    intro caller isWriter
    obtain ⟨bytes, isContent, isPrefix, whole⟩ :=
      tracked.holds caller isWriter
    exact
      ⟨bytes, isContent, isPrefix,
        fun waits => whole (fewerWait caller waits)⟩
  written := by
    intro caller waits
    exact tracked.written caller (fewerWait caller waits)

/-- A write replaces whatever the file held. -/
theorem FileTracked.write
    (pem : Caller → List UInt8) {awaits : Caller → Prop}
    (caller : Caller) (written : Option Nat)
    (wroteAll : awaits caller → written = none) :
    FileTracked pem awaits (some caller)
      (some (writtenBytes (pem caller) written)) where
  holds := by
    intro last isWriter
    cases isWriter
    refine ⟨_, rfl, writtenBytes_prefix _ _, ?_⟩
    intro waits
    rw [wroteAll waits, writtenBytes]
  written := by
    intro _ _
    exact ⟨caller, rfl⟩

/-- What a waiting call reads is its own file if it was the last writer. -/
theorem FileTracked.reads_own
    {pem : Caller → List UInt8} {awaits : Caller → Prop}
    {writer : Option Caller} {bytes : List UInt8} {caller : Caller}
    (tracked : FileTracked pem awaits writer (some bytes))
    (waits : awaits caller) (isWriter : writer = some caller) :
    bytes = pem caller := by
  obtain ⟨found, isContent, _, whole⟩ := tracked.holds caller isWriter
  cases isContent
  exact whole waits

/-- A waiting call that reads its own file was the last writer, unless the
file of another call begins with its own. -/
theorem FileTracked.wrote_last
    {pem : Caller → List UInt8} {awaits : Caller → Prop}
    {writer : Option Caller} {bytes : List UInt8} {caller : Caller}
    (tracked : FileTracked pem awaits writer (some bytes))
    (waits : awaits caller) (isOwn : bytes = pem caller)
    (distinct : ∀ other, pem caller <+: pem other → caller = other) :
    writer = some caller := by
  obtain ⟨last, isLast⟩ := tracked.written caller waits
  obtain ⟨found, isContent, isPrefix, _⟩ := tracked.holds last isLast
  cases isContent
  rw [isOwn] at isPrefix
  rw [isLast, distinct last isPrefix]

@[simp]
theorem withDirectory_calls
    (state : IdentityCalls Caller) (directory : TempDir) :
    (state.withDirectory directory).calls = state.calls :=
  rfl

theorem createConfiguration_eq_some
    {tools : IdentityTools Caller} {opens : Bool}
    {certificate key : Option (List UInt8)} {config : MsQuicConfiguration}
    (created :
      tools.createConfiguration opens certificate key = some config) :
    certificate = some config.certificate ∧ key = some config.key := by
  unfold IdentityTools.createConfiguration at created
  split at created
  · split at created
    · cases created
      exact ⟨rfl, rfl⟩
    · cases created
  · cases created

/-- The invariant of the interleavings. -/
structure IdentitiesTracked
    (table : Uppercase) (tools : IdentityTools Caller)
    (watched : IdentityCalls Caller × WriteHistory Caller) : Prop where
  noStatic : watched.1.directory.staticIdentity = none
  certificate :
    FileTracked tools.certPem
      (fun caller => (watched.1.calls caller).awaitsCertificate)
      watched.2.certificateWriter watched.1.directory.certificate
  key :
    FileTracked tools.keyPem
      (fun caller => (watched.1.calls caller).awaitsKey)
      watched.2.keyWriter watched.1.directory.key
  thumbprint :
    ∀ caller thumbprint config,
      watched.1.calls caller = .returned thumbprint config →
        thumbprint = computeThumbprint table (tools.certDer caller)
  own :
    watched.2.ownLoads = true →
      ∀ caller thumbprint config,
        watched.1.calls caller = .returned thumbprint config →
          config = tools.identity caller
  crossed :
    tools.Distinct → watched.2.ownLoads = false →
      ∃ caller thumbprint config,
        watched.1.calls caller = .returned thumbprint config ∧
          config ≠ tools.identity caller

theorem identitiesTracked_initial
    (table : Uppercase) (tools : IdentityTools Caller) (directory : TempDir)
    (noStatic : directory.staticIdentity = none) :
    IdentitiesTracked table tools (IdentityCalls.initial directory) where
  noStatic := noStatic
  certificate := FileTracked.start _ (fun _ waits => waits) _
  key := FileTracked.start _ (fun _ waits => waits) _
  thumbprint := by
    intro caller thumbprint config returned
    cases returned
  own := by
    intro _ caller thumbprint config returned
    cases returned
  crossed := by
    intro _ isCrossed
    cases isCrossed

end Files

section Interleavings

variable {Caller : Type} [DecidableEq Caller]

@[simp]
theorem become_same
    (state : IdentityCalls Caller) (caller : Caller) (call : IdentityCall) :
    (state.become caller call).calls caller = call := by
  simp [IdentityCalls.become]

theorem become_other
    {state : IdentityCalls Caller} {caller other : Caller}
    {call : IdentityCall} (different : other ≠ caller) :
    (state.become caller call).calls other = state.calls other := by
  simp [IdentityCalls.become, different]

/-- Where the new phase has a property only if the old one had it, every call
that has it afterwards had it before. -/
theorem become_reflects
    {state : IdentityCalls Caller} {caller : Caller} {call : IdentityCall}
    (property : IdentityCall → Prop)
    (reflects : property call → property (state.calls caller))
    (other : Caller)
    (after : property ((state.become caller call).calls other)) :
    property (state.calls other) := by
  by_cases same : other = caller
  · subst same
    rw [become_same] at after
    exact reflects after
  · rwa [become_other same] at after

/-- The property of a phase still holds after another call's step, and after
the call's own step only if the new phase has it. -/
theorem returned_before
    {state : IdentityCalls Caller} {caller : Caller} {call : IdentityCall}
    (quiet : ¬ call.hasReturned) {other : Caller} {thumbprint : String}
    {config : MsQuicConfiguration}
    (returned :
      (state.become caller call).calls other =
        .returned thumbprint config) :
    state.calls other = .returned thumbprint config := by
  refine
    become_reflects (fun phase => phase = .returned thumbprint config) ?_
      other returned
  intro isReturned
  exact absurd (by simp [isReturned, IdentityCall.hasReturned]) quiet

/-- A call that has returned makes no further step. -/
theorem returned_after
    (state : IdentityCalls Caller) {caller : Caller}
    (running : ¬ (state.calls caller).hasReturned) (call : IdentityCall)
    {other : Caller} {thumbprint : String} {config : MsQuicConfiguration}
    (returned : state.calls other = .returned thumbprint config) :
    (state.become caller call).calls other =
      .returned thumbprint config := by
  have different : other ≠ caller := by
    intro same
    subst same
    exact running (by simp [returned, IdentityCall.hasReturned])
  rw [become_other different, returned]

/-- A step that does not return keeps the invariant if it keeps the two files
tracked. -/
theorem IdentitiesTracked.move
    {table : Uppercase} {tools : IdentityTools Caller}
    {state : IdentityCalls Caller} {history noted : WriteHistory Caller}
    {caller : Caller} {call : IdentityCall}
    (tracked : IdentitiesTracked table tools (state, history))
    (running : ¬ (state.calls caller).hasReturned)
    (quiet : ¬ call.hasReturned) (directory : TempDir)
    (noStatic : directory.staticIdentity = none)
    (sameLoads : noted.ownLoads = history.ownLoads)
    (certificate :
      FileTracked tools.certPem
        (fun other =>
          (((state.withDirectory directory).become caller call).calls
              other).awaitsCertificate)
        noted.certificateWriter directory.certificate)
    (key :
      FileTracked tools.keyPem
        (fun other =>
          (((state.withDirectory directory).become caller call).calls
              other).awaitsKey)
        noted.keyWriter directory.key) :
    IdentitiesTracked table tools
      ((state.withDirectory directory).become caller call, noted) where
  noStatic := noStatic
  certificate := certificate
  key := key
  thumbprint := by
    intro other thumbprint config returned
    exact
      tracked.thumbprint other thumbprint config
        (returned_before quiet returned)
  own := by
    intro isOwn other thumbprint config returned
    rw [sameLoads] at isOwn
    exact
      tracked.own isOwn other thumbprint config
        (returned_before quiet returned)
  crossed := by
    intro distinct isCrossed
    rw [sameLoads] at isCrossed
    obtain ⟨other, thumbprint, config, returned, foreign⟩ :=
      tracked.crossed distinct isCrossed
    exact
      ⟨other, thumbprint, config,
        returned_after (state.withDirectory directory) running call returned,
        foreign⟩

/-- A step that writes nothing, to a phase that waits for nothing. -/
theorem IdentitiesTracked.idle
    {table : Uppercase} {tools : IdentityTools Caller}
    {state : IdentityCalls Caller} {history : WriteHistory Caller}
    {caller : Caller} {call : IdentityCall}
    (tracked : IdentitiesTracked table tools (state, history))
    (running : ¬ (state.calls caller).hasReturned)
    (isIdle : call = .generated ∨ call = .failed) :
    IdentitiesTracked table tools (state.become caller call, history) := by
  have quiet : ¬ call.hasReturned := by
    rcases isIdle with rfl | rfl <;> exact fun never => never
  refine
    tracked.move running quiet state.directory tracked.noStatic rfl
      (tracked.certificate.narrow ?_) (tracked.key.narrow ?_)
  · apply become_reflects IdentityCall.awaitsCertificate
    rcases isIdle with rfl | rfl <;> exact fun never => never.elim
  · apply become_reflects IdentityCall.awaitsKey
    rcases isIdle with rfl | rfl <;> exact fun never => never.elim

/-- The write of the certificate. -/
theorem IdentitiesTracked.writeCertificate
    {table : Uppercase} {tools : IdentityTools Caller}
    {state : IdentityCalls Caller} {history : WriteHistory Caller}
    {caller : Caller}
    (tracked : IdentitiesTracked table tools (state, history))
    (isPhase : state.calls caller = .generated) (written : Option Nat) :
    IdentitiesTracked table tools
      ((state.withDirectory
            { state.directory with
              certificate :=
                some (writtenBytes (tools.certPem caller) written) }).become
          caller (afterWrite .certificateWritten written),
        { history with certificateWriter := some caller }) := by
  have running : ¬ (state.calls caller).hasReturned := by
    rw [isPhase]
    exact fun never => never
  have quiet :
      ¬ (afterWrite .certificateWritten written).hasReturned := by
    cases written <;> exact fun never => never
  refine
    tracked.move running quiet _ tracked.noStatic rfl
      (FileTracked.write _ caller written ?_) (tracked.key.narrow ?_)
  · intro waits
    cases written with
    | none => rfl
    | some count =>
        rw [become_same] at waits
        exact waits.elim
  · apply become_reflects IdentityCall.awaitsKey
    cases written <;> exact fun never => never.elim

/-- The write of the key. -/
theorem IdentitiesTracked.writeKey
    {table : Uppercase} {tools : IdentityTools Caller}
    {state : IdentityCalls Caller} {history : WriteHistory Caller}
    {caller : Caller}
    (tracked : IdentitiesTracked table tools (state, history))
    (isPhase : state.calls caller = .certificateWritten)
    (written : Option Nat) :
    IdentitiesTracked table tools
      ((state.withDirectory
            { state.directory with
              key :=
                some (writtenBytes (tools.keyPem caller) written) }).become
          caller (afterWrite .keyWritten written),
        { history with keyWriter := some caller }) := by
  have running : ¬ (state.calls caller).hasReturned := by
    rw [isPhase]
    exact fun never => never
  have quiet : ¬ (afterWrite .keyWritten written).hasReturned := by
    cases written <;> exact fun never => never
  refine
    tracked.move running quiet _ tracked.noStatic rfl
      (tracked.certificate.narrow ?_)
      (FileTracked.write _ caller written ?_)
  · apply become_reflects IdentityCall.awaitsCertificate
    intro _
    rw [withDirectory_calls, isPhase]
    trivial
  · intro waits
    cases written with
    | none => rfl
    | some count =>
        rw [become_same] at waits
        exact waits.elim

/-- A load that succeeds: the configuration is the loader's own exactly where
it was the last writer of both files. -/
theorem IdentitiesTracked.load
    {table : Uppercase} {tools : IdentityTools Caller}
    {state : IdentityCalls Caller} {history : WriteHistory Caller}
    {caller : Caller} {config : MsQuicConfiguration}
    (tracked : IdentitiesTracked table tools (state, history))
    (isPhase : state.calls caller = .keyWritten)
    (isCertificate : state.directory.certificate = some config.certificate)
    (isKey : state.directory.key = some config.key) :
    let call :=
      IdentityCall.returned
        (computeThumbprint table (tools.certDer caller)) config
    IdentitiesTracked table tools
      (state.become caller call, history.afterLoad caller call) := by
  intro call
  have running : ¬ (state.calls caller).hasReturned := by
    rw [isPhase]
    exact fun returned => returned
  have certificate := tracked.certificate
  have key := tracked.key
  rw [isCertificate] at certificate
  rw [isKey] at key
  have waitsCertificate : (state.calls caller).awaitsCertificate := by
    rw [isPhase]
    trivial
  have waitsKey : (state.calls caller).awaitsKey := by
    rw [isPhase]
    trivial
  have ownIfLast
      (last :
        history.certificateWriter = some caller ∧
          history.keyWriter = some caller) :
      config = tools.identity caller := by
    have certificateOwn := certificate.reads_own waitsCertificate last.1
    have keyOwn := key.reads_own waitsKey last.2
    rw [IdentityTools.identity, ← certificateOwn, ← keyOwn]
  have lastIfOwn (distinct : tools.Distinct)
      (isOwn : config = tools.identity caller) :
      history.certificateWriter = some caller ∧
        history.keyWriter = some caller := by
    subst isOwn
    constructor
    · exact
        certificate.wrote_last waitsCertificate rfl
          (fun other isPrefix => distinct _ _ (Or.inl isPrefix))
    · exact
        key.wrote_last waitsKey rfl
          (fun other isPrefix => distinct _ _ (Or.inr isPrefix))
  constructor
  case noStatic => exact tracked.noStatic
  case certificate =>
    exact
      tracked.certificate.narrow
        (become_reflects IdentityCall.awaitsCertificate
          (fun never => never.elim))
  case key =>
    exact
      tracked.key.narrow
        (become_reflects IdentityCall.awaitsKey (fun never => never.elim))
  case thumbprint =>
    intro other thumbprint loaded returned
    by_cases same : other = caller
    · subst same
      rw [become_same] at returned
      exact (IdentityCall.returned.inj returned).1.symm
    · rw [become_other same] at returned
      exact tracked.thumbprint other thumbprint loaded returned
  case own =>
    intro isOwn other thumbprint loaded returned
    obtain ⟨before, last⟩ := Bool.and_eq_true_iff.mp isOwn
    by_cases same : other = caller
    · subst same
      rw [become_same] at returned
      rw [← (IdentityCall.returned.inj returned).2]
      exact ownIfLast (of_decide_eq_true last)
    · rw [become_other same] at returned
      exact tracked.own before other thumbprint loaded returned
  case crossed =>
    intro distinct isCrossed
    rcases Bool.and_eq_false_iff.mp isCrossed with before | foreign
    · obtain ⟨other, thumbprint, loaded, returned, isForeign⟩ :=
        tracked.crossed distinct before
      exact
        ⟨other, thumbprint, loaded,
          returned_after state running call returned, isForeign⟩
    · refine ⟨caller, _, config, become_same state caller call, ?_⟩
      intro isOwn
      exact of_decide_eq_false foreign (lastIfOwn distinct isOwn)

/-- One step of one call keeps the invariant. -/
theorem identityStep_tracked
    {table : Uppercase} {tools : IdentityTools Caller}
    {watched next : IdentityCalls Caller × WriteHistory Caller}
    {label : Caller × IdentityStep}
    (tracked : IdentitiesTracked table tools watched)
    (stepped : watchedIdentities table tools watched label = some next) :
    IdentitiesTracked table tools next := by
  obtain ⟨state, history⟩ := watched
  obtain ⟨target, noted⟩ := next
  obtain ⟨caller, step⟩ := label
  obtain ⟨moved, isNoted⟩ := withHistory_eq_some.mp stepped
  dsimp only at moved isNoted
  subst isNoted
  unfold identityStep at moved
  dsimp only at moved
  split at moved
  · rename_i isPhase
    cases moved
    rw [enterCall, tracked.noStatic]
    exact tracked.idle (by rw [isPhase]; exact id) (Or.inl rfl)
  · rename_i isPhase
    cases moved
    exact tracked.idle (by rw [isPhase]; exact id) (Or.inr rfl)
  · rename_i written isPhase
    cases moved
    exact tracked.writeCertificate isPhase written
  · rename_i written isPhase
    cases moved
    exact tracked.writeKey isPhase written
  · rename_i opens isPhase
    cases moved
    cases created :
      tools.createConfiguration opens state.directory.certificate
        state.directory.key with
    | none =>
        rw [noteWrites, become_same]
        exact tracked.idle (by rw [isPhase]; exact id) (Or.inr rfl)
    | some config =>
        obtain ⟨isCertificate, isKey⟩ := createConfiguration_eq_some created
        rw [noteWrites, become_same]
        exact tracked.load isPhase isCertificate isKey
  · cases moved

/-- For every interleaving of any number of calls: each call that returned has
loaded the identity it generated if it was the last to write either file
whenever it loaded, and only then if no two identities agree. -/
theorem identities_kept_exactly
    (table : Uppercase) (tools : IdentityTools Caller)
    (readsBack :
      ∀ caller, tools.presented (tools.certPem caller) = tools.certDer caller)
    (directory : TempDir) (noStatic : directory.staticIdentity = none)
    (steps : List (Caller × IdentityStep))
    (state : IdentityCalls Caller) (history : WriteHistory Caller)
    (run :
      Run (watchedIdentities table tools) anyStep
        (IdentityCalls.initial directory) steps (state, history)) :
    (history.ownLoads = true → IdentitiesKept table tools state) ∧
      (tools.Distinct → IdentitiesKept table tools state →
        history.ownLoads = true) := by
  have tracked :=
    run.preserves (IdentitiesTracked table tools)
      (fun _ _ _ before _ stepped => identityStep_tracked before stepped)
      (identitiesTracked_initial table tools directory noStatic)
  constructor
  · intro isOwn caller thumbprint config returned
    have ownConfig := tracked.own isOwn caller thumbprint config returned
    refine ⟨ownConfig, ?_⟩
    calc
      thumbprint = computeThumbprint table (tools.certDer caller) :=
        tracked.thumbprint caller thumbprint config returned
      _ = computeThumbprint table
            (tools.presented (tools.certPem caller)) := by
        rw [readsBack]
      _ = computeThumbprint table (tools.presented config.certificate) := by
        rw [ownConfig, IdentityTools.identity]
  · intro distinct kept
    cases isOwn : history.ownLoads with
    | true => rfl
    | false =>
        obtain ⟨caller, thumbprint, config, returned, foreign⟩ :=
          tracked.crossed distinct isOwn
        exact absurd (kept caller thumbprint config returned).1 foreign

end Interleavings

/-- Two calls, and a load that wants the key of the certificate. -/
def twoIdentities : IdentityTools (Fin 2) where
  certDer caller := [UInt8.ofNat caller]
  certPem caller := [45, UInt8.ofNat caller]
  keyPem caller := [46, UInt8.ofNat caller]
  accepts certificate key := certificate.tail == key.tail
  presented certificate := certificate.tail

def emptyTempDir : TempDir := ⟨none, none, none⟩

def IdentityCall.config? : IdentityCall → Option MsQuicConfiguration
  | .returned _ config => some config
  | _ => none

theorem calls_in_turn_keep_identities :
    ∃ state history,
      Run (watchedIdentities Uppercase.least twoIdentities) anyStep
          (IdentityCalls.initial emptyTempDir)
          [(0, .enter), (1, .enter), (0, .writeCertificate none),
            (0, .writeKey none), (0, .load true),
            (1, .writeCertificate none), (1, .writeKey none),
            (1, .load true)]
          (state, history) ∧
        (state.calls 0).config? = some (twoIdentities.identity 0) ∧
        IdentitiesKept Uppercase.least twoIdentities state := by
  have ran :
      (replay (watchedIdentities Uppercase.least twoIdentities)
          (IdentityCalls.initial emptyTempDir)
          [(0, .enter), (1, .enter), (0, .writeCertificate none),
            (0, .writeKey none), (0, .load true),
            (1, .writeCertificate none), (1, .writeKey none),
            (1, .load true)]).map
          (fun watched =>
            ((watched.1.calls 0).config?, watched.2.ownLoads)) =
        some (some (twoIdentities.identity 0), true) := by
    decide
  obtain ⟨⟨state, history⟩, reached, same⟩ :=
    Option.map_eq_some_iff.mp ran
  injection same with loaded isOwn
  have run := run_of_replay reached
  exact
    ⟨state, history, run, loaded,
      (identities_kept_exactly Uppercase.least twoIdentities
          (fun _ => rfl) emptyTempDir rfl _ state history run).1 isOwn⟩

/-- The second call writes both files before the first one loads them. -/
theorem crossed_identities :
    ∃ state history thumbprint,
      Run (watchedIdentities Uppercase.least twoIdentities) anyStep
          (IdentityCalls.initial emptyTempDir)
          [(0, .enter), (1, .enter), (0, .writeCertificate none),
            (0, .writeKey none), (1, .writeCertificate none),
            (1, .writeKey none), (0, .load true)]
          (state, history) ∧
        state.calls 0 =
          .returned thumbprint (twoIdentities.identity 1) ∧
        ¬ IdentitiesKept Uppercase.least twoIdentities state := by
  have ran :
      (replay (watchedIdentities Uppercase.least twoIdentities)
          (IdentityCalls.initial emptyTempDir)
          [(0, .enter), (1, .enter), (0, .writeCertificate none),
            (0, .writeKey none), (1, .writeCertificate none),
            (1, .writeKey none), (0, .load true)]).map
          (fun watched => (watched.1.calls 0).config?) =
        some (some (twoIdentities.identity 1)) := by
    decide
  obtain ⟨⟨state, history⟩, reached, same⟩ :=
    Option.map_eq_some_iff.mp ran
  have foreign : twoIdentities.identity 1 ≠ twoIdentities.identity 0 := by
    decide
  cases isCall : state.calls 0 with
  | returned thumbprint config =>
      dsimp only at same
      rw [isCall] at same
      cases same
      refine ⟨state, history, thumbprint, run_of_replay reached, isCall, ?_⟩
      intro kept
      exact foreign (kept 0 _ _ isCall).1
  | _ =>
      dsimp only at same
      rw [isCall] at same
      cases same

end Quiczilla
