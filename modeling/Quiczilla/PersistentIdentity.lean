import Mathlib.Data.Bool.AllAny
import Quiczilla.EphemeralIdentity

/-!
# The persistent identity of a daemon

`build_persistent_quic_config` keeps a certificate, its key and its thumbprint
in three files.  It writes all of them again unless all of them exist, and
loads whatever is there.  The calls follow each other; each of them may stop
after a write, or in one that fails, which may leave the first bytes.

Identities are numbered: 0 is that of an earlier daemon, and every call that
generates one takes the next number.  A call that fails before it looks at the
files is no step.
-/

namespace Quiczilla

open Foundation

structure IdentityDir where
  certificate : Option (List UInt8)
  key : Option (List UInt8)
  thumbprint : Option String
  deriving DecidableEq, Repr

/-- What the current call does next. -/
inductive PersistentPhase where
  | between
  | writesCertificate
  | writesKey
  | writesThumbprint
  | loads
  deriving DecidableEq, Repr

/-- `returned` are the results of the calls that succeeded. -/
structure PersistentCalls where
  directory : IdentityDir
  issued : Nat
  phase : PersistentPhase
  returned : List (String × MsQuicConfiguration)
  deriving DecidableEq, Repr

/-- A write that fails has written so many bytes. -/
inductive PersistentLabel where
  | enter
  | writeCertificate (failed : Option Nat)
  | writeKey (failed : Option Nat)
  | writeThumbprint (failed : Option Nat)
  | load (opens : Bool)
  | stop
  deriving DecidableEq, Repr

namespace IdentityDir

def hasAll (directory : IdentityDir) : Bool :=
  directory.certificate.isSome && directory.key.isSome &&
    directory.thumbprint.isSome

end IdentityDir

section Calls

variable (table : Uppercase) (tools : IdentityTools Nat)

/-- What a call writes to the file `thumbprint`. -/
def thumbprintFile (identity : Nat) : String :=
  computeThumbprint table (tools.certDer identity) ++ "\n"

def writtenText (text : String) : Option Nat → String
  | some count => String.ofList (text.toList.take count)
  | none => text

/-- The end of a call. -/
def IdentityDir.load (opens : Bool) (directory : IdentityDir) :
    Option (String × MsQuicConfiguration) :=
  match directory.thumbprint with
  | none => none
  | some text =>
      match normalizeThumbprint table text with
      | .error _ => none
      | .ok thumbprint =>
          (tools.createConfiguration opens directory.certificate
            directory.key).map (thumbprint, ·)

/-- The phase after a write. -/
def PersistentPhase.afterWrite
    (next : PersistentPhase) : Option Nat → PersistentPhase
  | some _ => .between
  | none => next

def persistentStep
    (state : PersistentCalls) (label : PersistentLabel) :
    Option PersistentCalls :=
  match state.phase, label with
  | .between, .enter =>
      if state.directory.hasAll then some { state with phase := .loads }
      else
        some
          { state with
            issued := state.issued + 1
            phase := .writesCertificate }
  | .writesCertificate, .writeCertificate failed =>
      some
        { state with
          directory :=
            { state.directory with
              certificate :=
                some (writtenBytes (tools.certPem state.issued) failed) }
          phase := .afterWrite .writesKey failed }
  | .writesKey, .writeKey failed =>
      some
        { state with
          directory :=
            { state.directory with
              key :=
                some (writtenBytes (tools.keyPem state.issued) failed) }
          phase := .afterWrite .writesThumbprint failed }
  | .writesThumbprint, .writeThumbprint failed =>
      some
        { state with
          directory :=
            { state.directory with
              thumbprint :=
                some
                  (writtenText (thumbprintFile table tools state.issued)
                    failed) }
          phase := .afterWrite .loads failed }
  | .loads, .load opens =>
      some
        { state with
          phase := .between
          returned :=
            state.returned ++
              (state.directory.load table tools opens).toList }
  | .between, _ => none
  | _, .stop => some { state with phase := .between }
  | _, _ => none

/-- Any of the files that an earlier daemon wrote. -/
def PersistentCalls.initial
    (hasCertificate hasKey hasThumbprint : Bool) : PersistentCalls where
  directory :=
    { certificate :=
        if hasCertificate then some (tools.certPem 0) else none
      key := if hasKey then some (tools.keyPem 0) else none
      thumbprint :=
        if hasThumbprint then some (thumbprintFile table tools 0)
        else none }
  issued := 0
  phase := .between
  returned := []

/-- Every call that returned has loaded one identity, and returned the
thumbprint of the certificate that its configuration presents. -/
def IdentitiesConsistent (state : PersistentCalls) : Prop :=
  ∀ thumbprint config, (thumbprint, config) ∈ state.returned →
    thumbprint = computeThumbprint table (tools.presented config.certificate) ∧
      ∃ identity, config = tools.identity identity

/-- A call that stops between its writes leaves a file missing. -/
def leavesOneMissing
    (state : PersistentCalls) (label : PersistentLabel) : Prop :=
  match state.phase, label with
  | .writesCertificate, .writeCertificate (some _) =>
      state.directory.key = none ∨ state.directory.thumbprint = none
  | .writesKey, .stop =>
      state.directory.key = none ∨ state.directory.thumbprint = none
  | .writesKey, .writeKey (some _) => state.directory.thumbprint = none
  | .writesThumbprint, .stop => state.directory.thumbprint = none
  | _, _ => True

end Calls

/-! ## The thumbprint file -/

theorem length_sha1 (message : List UInt8) :
    (sha1 message).length = 20 := by
  simp [sha1]

theorem length_upperHex (bytes : List UInt8) :
    (upperHex bytes).toList.length = 2 * bytes.length := by
  simp [upperHex, hexEncode, List.length_flatMap, Nat.mul_comm]

/-- Upper-case digits, and white space behind them, have the digits as their
normal form. -/
theorem normalizedText_digits
    (table : Uppercase) {digits rest : List Char}
    (areDigits : ∀ character ∈ digits, character ∈ upperHexDigits)
    (blank : ∀ character ∈ rest, isAsciiWhitespace character = true) :
    normalizedText table (String.ofList (digits ++ rest)) =
      String.ofList digits := by
  have kept :
      ∀ character ∈ upperHexDigits,
        (!isAsciiWhitespace character && character != ':') = true ∧
          character.toNat < 128 ∧ character.toUpper = character :=
    List.all_iff_forall_prop.mp (by decide)
  have filtered :
      ((digits ++ rest).filter fun character =>
          !isAsciiWhitespace character && character != ':') = digits := by
    have keepsDigits :
        (digits.filter fun character =>
            !isAsciiWhitespace character && character != ':') = digits := by
      rw [List.filter_eq_self]
      intro character member
      exact (kept character (areDigits character member)).1
    have dropsRest :
        (rest.filter fun character =>
            !isAsciiWhitespace character && character != ':') = [] := by
      rw [List.filter_eq_nil_iff]
      intro character member
      simp [blank character member]
    rw [List.filter_append, keepsDigits, dropsRest, List.append_nil]
  have mapped : digits.flatMap table.mapping = digits := by
    have single :
        ∀ character ∈ digits, table.mapping character = [character] := by
      intro character member
      obtain ⟨_, ascii, same⟩ := kept character (areDigits character member)
      rw [table.ascii character ascii, same]
    rw [List.flatMap_congr single, List.flatMap_singleton']
  rw [normalizedText, String.toList_ofList, filtered,
    Uppercase.toUppercase, String.toList_ofList, mapped]

theorem newline_blank :
    ∀ character ∈ ['\n'], isAsciiWhitespace character = true :=
  List.all_iff_forall_prop.mp (by decide)

theorem utf8ByteSize_digits
    {digits : List Char}
    (areDigits : ∀ character ∈ digits, character ∈ upperHexDigits) :
    (String.ofList digits).utf8ByteSize = digits.length := by
  have single : ∀ character ∈ upperHexDigits, character.utf8Size = 1 :=
    List.all_iff_forall_prop.mp (by decide)
  rw [utf8ByteSize_ofList]
  induction digits with
  | nil => rfl
  | cons first rest inductionHypothesis =>
      have others :=
        inductionHypothesis fun character member =>
          areDigits character (List.mem_cons_of_mem _ member)
      rw [List.map_cons, List.sum_cons, others, List.length_cons,
        single first (areDigits first List.mem_cons_self), Nat.add_comm]

section Reading

variable {table : Uppercase} {tools : IdentityTools Nat}

theorem thumbprint_digits (certDer : List UInt8) :
    (∀ character ∈ (computeThumbprint table certDer).toList,
        character ∈ upperHexDigits) ∧
      (computeThumbprint table certDer).toList.length = 40 := by
  rw [computeThumbprint_eq]
  refine ⟨upperHex_digits _, ?_⟩
  rw [length_upperHex, length_sha1]

/-- What is read back of the file is the thumbprint, or refused. -/
theorem normalize_writtenText
    {identity : Nat} {failed : Option Nat} {thumbprint : String}
    (normalized :
      normalizeThumbprint table
          (writtenText (thumbprintFile table tools identity) failed) =
        .ok thumbprint) :
    thumbprint = computeThumbprint table (tools.certDer identity) := by
  obtain ⟨areDigits, length⟩ :=
    @thumbprint_digits table (tools.certDer identity)
  generalize isWhole :
    computeThumbprint table (tools.certDer identity) = whole
    at areDigits length
  obtain ⟨digits, rest, isText, isPrefix, blank⟩ :
      ∃ digits rest,
        writtenText (thumbprintFile table tools identity) failed =
            String.ofList (digits ++ rest) ∧
          digits <+: whole.toList ∧
            ∀ character ∈ rest, isAsciiWhitespace character = true := by
    have file :
        (thumbprintFile table tools identity).toList =
          whole.toList ++ ['\n'] := by
      rw [thumbprintFile, isWhole, String.toList_append]
      rfl
    cases failed with
    | none =>
        refine ⟨whole.toList, ['\n'], ?_, List.prefix_rfl, newline_blank⟩
        rw [writtenText, ← file, String.ofList_toList]
    | some count =>
        refine
          ⟨whole.toList.take count,
            ['\n'].take (count - whole.toList.length), ?_,
            List.take_prefix _ _, ?_⟩
        · rw [writtenText, file, List.take_append]
        · intro character member
          exact newline_blank character (List.mem_of_mem_take member)
  have digitsAreDigits :
      ∀ character ∈ digits, character ∈ upperHexDigits :=
    fun character member => areDigits character (isPrefix.subset member)
  unfold normalizeThumbprint at normalized
  rw [isText, normalizedText_digits table digitsAreDigits blank]
    at normalized
  split at normalized
  · cases normalized
  · rename_i valid
    rw [not_or, Decidable.not_not, utf8ByteSize_digits digitsAreDigits]
      at valid
    have same : digits = whole.toList :=
      isPrefix.eq_of_length (valid.1.trans length.symm)
    rw [← Except.ok.inj normalized, same, String.ofList_toList]

/-- Where all three files are there, they are of one identity; of the
thumbprint perhaps only the beginning. -/
def FilesSettled
    (table : Uppercase) (tools : IdentityTools Nat)
    (directory : IdentityDir) : Prop :=
  directory.hasAll = true →
    ∃ identity failed,
      directory.certificate = some (tools.certPem identity) ∧
        directory.key = some (tools.keyPem identity) ∧
          directory.thumbprint =
            some
              (writtenText (thumbprintFile table tools identity) failed)

theorem settled_of_missing
    {directory : IdentityDir}
    (missing :
      directory.certificate = none ∨ directory.key = none ∨
        directory.thumbprint = none) :
    FilesSettled table tools directory := by
  intro hasAll
  rcases missing with none | none | none <;>
    simp [IdentityDir.hasAll, none] at hasAll

/-- What a load of settled files returns. -/
theorem load_of_settled
    {directory : IdentityDir} {opens : Bool} {thumbprint : String}
    {config : MsQuicConfiguration}
    (settled : FilesSettled table tools directory)
    (loaded :
      directory.load table tools opens = some (thumbprint, config)) :
    ∃ identity, config = tools.identity identity ∧
      thumbprint = computeThumbprint table (tools.certDer identity) := by
  unfold IdentityDir.load at loaded
  cases isThumbprint : directory.thumbprint with
  | none =>
      rw [isThumbprint] at loaded
      cases loaded
  | some text =>
      simp only [isThumbprint] at loaded
      cases normalized : normalizeThumbprint table text with
      | error error =>
          rw [normalized] at loaded
          cases loaded
      | ok read =>
          simp only [normalized] at loaded
          obtain ⟨found, created, isResult⟩ :=
            Option.map_eq_some_iff.mp loaded
          cases isResult
          obtain ⟨isCertificate, isKey⟩ :=
            createConfiguration_eq_some created
          obtain ⟨identity, failed, isCertPem, isKeyPem, isText⟩ :=
            settled (by
              simp [IdentityDir.hasAll, isCertificate, isKey,
                isThumbprint])
          rw [isThumbprint] at isText
          obtain rfl := Option.some.inj isText
          refine ⟨identity, ?_, normalize_writtenText normalized⟩
          rw [isCertificate] at isCertPem
          rw [isKey] at isKeyPem
          rw [IdentityTools.identity, ← Option.some.inj isCertPem,
            ← Option.some.inj isKeyPem]

/-- The invariant of the calls: between calls, before a write and before a
load the files are settled; after a write they are those of the call. -/
structure CallsTracked
    (table : Uppercase) (tools : IdentityTools Nat)
    (state : PersistentCalls) : Prop where
  consistent : IdentitiesConsistent table tools state
  settled :
    state.phase = .between ∨ state.phase = .writesCertificate ∨
        state.phase = .loads →
      FilesSettled table tools state.directory
  certificate :
    state.phase = .writesKey ∨ state.phase = .writesThumbprint →
      state.directory.certificate = some (tools.certPem state.issued)
  key :
    state.phase = .writesThumbprint →
      state.directory.key = some (tools.keyPem state.issued)

theorem callsTracked_initial
    (table : Uppercase) (tools : IdentityTools Nat)
    (hasCertificate hasKey hasThumbprint : Bool) :
    CallsTracked table tools
      (.initial table tools hasCertificate hasKey hasThumbprint) where
  consistent := by
    intro thumbprint config member
    cases member
  settled := by
    intro _ hasAll
    simp only [IdentityDir.hasAll, PersistentCalls.initial] at hasAll ⊢
    cases hasCertificate with
    | false => cases hasAll
    | true =>
        cases hasKey with
        | false => cases hasAll
        | true =>
            cases hasThumbprint with
            | false => cases hasAll
            | true => exact ⟨0, none, rfl, rfl, rfl⟩
  certificate := nofun
  key := nofun

/-- A step into a phase with settled files that returns nothing. -/
theorem CallsTracked.settle
    {state next : PersistentCalls}
    (tracked : CallsTracked table tools state)
    (same : next.returned = state.returned)
    (settled : FilesSettled table tools next.directory)
    (phase :
      next.phase = .between ∨ next.phase = .writesCertificate ∨
        next.phase = .loads) :
    CallsTracked table tools next where
  consistent := by
    intro thumbprint config member
    rw [same] at member
    exact tracked.consistent thumbprint config member
  settled := fun _ => settled
  certificate := by
    intro either
    rcases phase with isPhase | isPhase | isPhase <;>
      simp [isPhase] at either
  key := by
    intro isThumbprint
    rcases phase with isPhase | isPhase | isPhase <;>
      simp [isPhase] at isThumbprint

theorem persistentStep_tracked
    (readsBack :
      ∀ identity,
        tools.presented (tools.certPem identity) = tools.certDer identity)
    {state next : PersistentCalls} {label : PersistentLabel}
    (tracked : CallsTracked table tools state)
    (missing : leavesOneMissing state label)
    (stepped : persistentStep table tools state label = some next) :
    CallsTracked table tools next := by
  unfold persistentStep at stepped
  unfold leavesOneMissing at missing
  split at stepped
  case h_1 isPhase =>
    have settled := tracked.settled (Or.inl isPhase)
    split at stepped
    · cases stepped
      exact tracked.settle rfl settled (Or.inr (Or.inr rfl))
    · cases stepped
      exact tracked.settle rfl settled (Or.inr (Or.inl rfl))
  case h_2 failed isPhase =>
    cases failed with
    | some count =>
        cases stepped
        rw [isPhase] at missing
        refine tracked.settle rfl ?_ (Or.inl rfl)
        exact settled_of_missing (Or.inr missing)
    | none =>
        cases stepped
        refine ⟨tracked.consistent, ?_, fun _ => rfl, ?_⟩
        · intro elsewhere
          simp [PersistentPhase.afterWrite] at elsewhere
        · intro isThumbprint
          simp [PersistentPhase.afterWrite] at isThumbprint
  case h_3 failed isPhase =>
    cases failed with
    | some count =>
        cases stepped
        rw [isPhase] at missing
        refine tracked.settle rfl ?_ (Or.inl rfl)
        exact settled_of_missing (Or.inr (Or.inr missing))
    | none =>
        cases stepped
        refine ⟨tracked.consistent, ?_, fun _ => ?_, fun _ => rfl⟩
        · intro elsewhere
          simp [PersistentPhase.afterWrite] at elsewhere
        · exact tracked.certificate (Or.inl isPhase)
  case h_4 failed isPhase =>
    have isCertificate := tracked.certificate (Or.inr isPhase)
    have isKey := tracked.key isPhase
    cases stepped
    refine tracked.settle rfl ?_ ?_
    · exact fun _ => ⟨state.issued, failed, isCertificate, isKey, rfl⟩
    · cases failed with
      | none => exact Or.inr (Or.inr rfl)
      | some count => exact Or.inl rfl
  case h_5 opens isPhase =>
    have settled := tracked.settled (Or.inr (Or.inr isPhase))
    cases stepped
    refine ⟨?_, fun _ => settled, ?_, ?_⟩
    · intro thumbprint config member
      rcases List.mem_append.mp member with earlier | new
      · exact tracked.consistent thumbprint config earlier
      · obtain ⟨identity, isConfig, isThumbprint⟩ :=
          load_of_settled settled (Option.mem_toList.mp new)
        refine ⟨?_, identity, isConfig⟩
        rw [isConfig, IdentityTools.identity, readsBack, isThumbprint]
    · intro writes
      simp at writes
    · intro writes
      cases writes
  case h_6 => cases stepped
  case h_7 isBetween =>
    cases stepped
    refine tracked.settle rfl ?_ (Or.inl rfl)
    cases isPhase : state.phase with
    | between => exact absurd isPhase isBetween
    | writesCertificate =>
        exact tracked.settled (Or.inr (Or.inl isPhase))
    | writesKey =>
        rw [isPhase] at missing
        exact settled_of_missing (Or.inr missing)
    | writesThumbprint =>
        rw [isPhase] at missing
        exact settled_of_missing (Or.inr (Or.inr missing))
    | loads => exact tracked.settled (Or.inr (Or.inr isPhase))
  case h_8 => cases stepped

/-- In every run in which no call stops between its writes with all three
files there, every call that returned is consistent. -/
theorem persistent_identity_consistent
    (table : Uppercase) (tools : IdentityTools Nat)
    (readsBack :
      ∀ identity,
        tools.presented (tools.certPem identity) = tools.certDer identity)
    {hasCertificate hasKey hasThumbprint : Bool}
    {labels : List PersistentLabel} {state : PersistentCalls}
    (run :
      Run (persistentStep table tools) leavesOneMissing
        (.initial table tools hasCertificate hasKey hasThumbprint) labels
        state) :
    IdentitiesConsistent table tools state := by
  have tracked :=
    run.preserves (CallsTracked table tools)
      (fun _ _ _ before missing stepped =>
        persistentStep_tracked readsBack before missing stepped)
      (callsTracked_initial table tools hasCertificate hasKey
        hasThumbprint)
  exact tracked.consistent

theorem load_eq_some
    {directory : IdentityDir} {opens : Bool} {text thumbprint : String}
    {config : MsQuicConfiguration}
    (isThumbprint : directory.thumbprint = some text)
    (normalized : normalizeThumbprint table text = .ok thumbprint)
    (created :
      tools.createConfiguration opens directory.certificate directory.key =
        some config) :
    directory.load table tools opens = some (thumbprint, config) := by
  unfold IdentityDir.load
  simp only [isThumbprint, normalized, created, Option.map_some]

theorem normalize_thumbprintFile
    (table : Uppercase) (tools : IdentityTools Nat) (identity : Nat) :
    normalizeThumbprint table (thumbprintFile table tools identity) =
      .ok (computeThumbprint table (tools.certDer identity)) := by
  obtain ⟨areDigits, length⟩ :=
    @thumbprint_digits table (tools.certDer identity)
  have file :
      thumbprintFile table tools identity =
        String.ofList
          ((computeThumbprint table (tools.certDer identity)).toList ++
            ['\n']) := by
    rw [String.ofList_append, String.ofList_toList]
    rfl
  have allHex :
      (computeThumbprint table (tools.certDer identity)).toList.all
        isAsciiHexdigit = true := by
    have hex : ∀ digit ∈ upperHexDigits, isAsciiHexdigit digit = true :=
      List.all_iff_forall_prop.mp (by decide)
    rw [List.all_eq_true]
    exact fun character member => hex character (areDigits character member)
  unfold normalizeThumbprint
  rw [file, normalizedText_digits table areDigits newline_blank,
    utf8ByteSize_digits areDigits, String.toList_ofList, allHex, length,
    String.ofList_toList]
  simp

end Reading

/-- Identities that are told apart by their numbers. -/
def numberedIdentities : IdentityTools Nat where
  certDer identity := [UInt8.ofNat identity]
  certPem identity := [45, UInt8.ofNat identity]
  keyPem identity := [46, UInt8.ofNat identity]
  accepts certificate key := certificate.tail == key.tail
  presented certificate := certificate.tail

theorem createConfiguration_numbered (identity : Nat) :
    numberedIdentities.createConfiguration true
        (some (numberedIdentities.certPem identity))
        (some (numberedIdentities.keyPem identity)) =
      some (numberedIdentities.identity identity) := by
  simp [IdentityTools.createConfiguration, numberedIdentities,
    IdentityTools.identity]

/-- Files of numbered identities that a load accepts. -/
theorem load_numbered
    {directory : IdentityDir} {key thumbprint : Nat}
    (isCertificate :
      directory.certificate = some (numberedIdentities.certPem key))
    (isKey : directory.key = some (numberedIdentities.keyPem key))
    (isThumbprint :
      directory.thumbprint =
        some
          (thumbprintFile Uppercase.least numberedIdentities thumbprint)) :
    directory.load Uppercase.least numberedIdentities true =
      some
        (computeThumbprint Uppercase.least
            (numberedIdentities.certDer thumbprint),
          numberedIdentities.identity key) := by
  refine load_eq_some isThumbprint (normalize_thumbprintFile _ _ _) ?_
  rw [isCertificate, isKey, createConfiguration_numbered]

/-- The files of the second identity, and a result. -/
def secondIdentity (returned : List (String × MsQuicConfiguration)) :
    PersistentCalls where
  directory :=
    { certificate := some (numberedIdentities.certPem 2)
      key := some (numberedIdentities.keyPem 2)
      thumbprint :=
        some (thumbprintFile Uppercase.least numberedIdentities 2) }
  issued := 2
  phase := .between
  returned := returned

/-- The first call stops after the certificate; the second one writes all
three files and returns. -/
theorem interrupted_identity_consistent :
    IdentitiesConsistent Uppercase.least numberedIdentities
      (secondIdentity
        [(computeThumbprint Uppercase.least
            (numberedIdentities.certDer 2),
          numberedIdentities.identity 2)]) := by
  have loaded :
      (IdentityDir.load Uppercase.least numberedIdentities true
          (secondIdentity []).directory).toList =
        [(computeThumbprint Uppercase.least
            (numberedIdentities.certDer 2),
          numberedIdentities.identity 2)] := by
    rw [load_numbered rfl rfl rfl]
    rfl
  rw [← loaded]
  have run :
      Run (persistentStep Uppercase.least numberedIdentities)
        leavesOneMissing
        (.initial Uppercase.least numberedIdentities false false false)
        [.enter, .writeCertificate none, .stop, .enter,
          .writeCertificate none, .writeKey none, .writeThumbprint none,
          .load true]
        (secondIdentity
          (IdentityDir.load Uppercase.least numberedIdentities true
            (secondIdentity []).directory).toList) :=
    .cons trivial rfl
      (.cons trivial rfl
        (.cons (Or.inl rfl) rfl
          (.cons trivial rfl
            (.cons trivial rfl
              (.cons trivial rfl
                (.cons trivial rfl
                  (.cons trivial rfl (.refl _))))))))
  exact persistent_identity_consistent _ _ (fun _ => rfl) run

/-- The thumbprint is that of an earlier daemon, and the call that generates
new files stops before it writes its own. -/
theorem stale_thumbprint_returned :
    ¬ ∀ (table : Uppercase) (tools : IdentityTools Nat),
      (∀ identity,
        tools.presented (tools.certPem identity) =
          tools.certDer identity) →
      ∀ (hasCertificate hasKey hasThumbprint : Bool)
        (labels : List PersistentLabel) (state : PersistentCalls),
        Run (persistentStep table tools) anyStep
            (.initial table tools hasCertificate hasKey hasThumbprint)
            labels state →
          IdentitiesConsistent table tools state := by
  intro always
  have loaded :=
    @load_numbered
      ⟨some (numberedIdentities.certPem 1),
        some (numberedIdentities.keyPem 1),
        some (thumbprintFile Uppercase.least numberedIdentities 0)⟩
      1 0 rfl rfl rfl
  have consistent :=
    always Uppercase.least numberedIdentities (fun _ => rfl) false false
      true
      [.enter, .writeCertificate none, .writeKey none, .stop, .enter,
        .load true]
      _
      (.cons trivial rfl
        (.cons trivial rfl
          (.cons trivial rfl
            (.cons trivial rfl
              (.cons trivial rfl (.cons trivial rfl (.refl _)))))))
  have stale :=
    (consistent
      (computeThumbprint Uppercase.least (numberedIdentities.certDer 0))
      (numberedIdentities.identity 1) (by
        refine List.mem_append_right _ (Option.mem_toList.mpr ?_)
        exact loaded)).1
  have different :
      upperHex (sha1 (numberedIdentities.certDer 0)) ≠
        upperHex (sha1 (numberedIdentities.certDer 1)) := by
    decide +kernel
  rw [computeThumbprint_eq, computeThumbprint_eq] at stale
  exact different stale

end Quiczilla
