import Quiczilla.Foundation.Text
import Quiczilla.TerminalStatus

/-!
# The exit class of an error

`CliFailure::from` takes the exit code from the text of an error: the first
class of words of which one occurs in the lower-cased message.  Four errors
embed a text from outside in a fixed message.
-/

namespace Quiczilla

open Foundation

/-! ## Classification -/

def generalError : Nat := 1
def authFailure : Nat := 3
def networkFailure : Nat := 4
def conflictRefusal : Nat := 6
def protocolIncompatible : Nat := 7

/-- The words that decide a class, and its exit code. -/
structure ErrorClass where
  words : List String
  code : Nat
  deriving DecidableEq, Repr

/-- The branches of `classify_error_message`, in their order. -/
def errorClasses : List ErrorClass :=
  [⟨["protocol", "incompatible", "does not support", "missing feature"],
      protocolIncompatible⟩,
    ⟨["thumbprint", "certificate", "unauthorized", "tls alert",
        "handshake", "wrong daemon pin", "rogue"],
      authFailure⟩,
    ⟨["checksum", "hash mismatch", "integrity", "hashfailed"],
      integrityFailure⟩,
    ⟨["refused", "refuse", "already exists", "conflict", "symlink",
        "traversal"],
      conflictRefusal⟩,
    ⟨["network", "connection", "connect", "timeout", "timed out",
        "unreachable", "exhausted", "udp transport failed",
        "ssh probe failed"],
      networkFailure⟩]

/-- One of the words occurs in the characters. -/
def ErrorClass.occursIn
    (errorClass : ErrorClass) (lower : List Char) : Bool :=
  errorClass.words.any fun word => containsWord word.toList lower

def classOf (lower : List Char) : List ErrorClass → Nat
  | [] => generalError
  | errorClass :: rest =>
      if errorClass.occursIn lower then errorClass.code
      else classOf lower rest

theorem classOf_ne_zero (lower : List Char) :
    classOf lower errorClasses ≠ 0 := by
  have positive :
      ∀ errorClass ∈ errorClasses, errorClass.code ≠ 0 := by
    decide
  revert positive
  induction errorClasses with
  | nil =>
      intro _
      exact Nat.one_ne_zero
  | cons first rest inductionHypothesis =>
      intro positive
      rw [classOf]
      split
      · exact positive first List.mem_cons_self
      · exact
          inductionHypothesis fun errorClass member =>
            positive errorClass (List.mem_cons_of_mem _ member)

def classifyErrorMessage (table : Lowercase) (message : String) : Nat :=
  classOf (table.toLowercase message).toList errorClasses

structure CliFailure where
  code : Nat
  message : String
  deriving DecidableEq, Repr

/-- `From<anyhow::Error>`; `to_string` of the error is its outermost
message. -/
def CliFailure.fromError (table : Lowercase) (message : String) :
    CliFailure where
  code := classifyErrorMessage table message
  message := message

/-! ## Errors with an embedded text -/

/-- The errors that embed the path of a local file, or what `ssh` wrote. -/
inductive EmbeddingError where
  | fileMissing
  | metadataFailed
  | readFailed
  | sshProbeFailed
  deriving DecidableEq, Repr

def EmbeddingError.beginning : EmbeddingError → String
  | .fileMissing => "Local file does not exist: "
  | .metadataFailed => "Failed to read metadata for "
  | .readFailed => "failed to read local file "
  | .sshProbeFailed => "SSH probe failed: "

/-- What `ssh` wrote is trimmed. -/
def EmbeddingError.embedded (error : EmbeddingError) (text : String) :
    String :=
  match error with
  | .sshProbeFailed => trim text
  | _ => text

def EmbeddingError.message (error : EmbeddingError) (text : String) :
    String :=
  error.beginning ++ error.embedded text

def EmbeddingError.failure
    (error : EmbeddingError) (table : Lowercase) (text : String) :
    CliFailure :=
  CliFailure.fromError table (error.message text)

/-- The class of the error itself. -/
def EmbeddingError.code : EmbeddingError → Nat
  | .sshProbeFailed => networkFailure
  | _ => generalError

/-- The exit code is that of the error, whichever of the texts it embeds. -/
structure EmbeddingError.Fixed
    (error : EmbeddingError) (table : Lowercase) (text other : String) :
    Prop where
  same : (error.failure table text).code = (error.failure table other).code
  own : (error.failure table text).code = error.code

/-- The branches before the one that the error itself takes. -/
def EmbeddingError.earlierClasses : EmbeddingError → List ErrorClass
  | .sshProbeFailed => errorClasses.take 4
  | _ => errorClasses

/-- The lower-cased text contains a word of an earlier branch. -/
def EmbeddingError.Misled
    (error : EmbeddingError) (table : Lowercase) (text : String) : Prop :=
  ∃ errorClass ∈ error.earlierClasses,
    errorClass.occursIn
        (table.lowerFrom error.beginning.toList
          (error.embedded text).toList) =
      true

theorem classOf_append_iff
    {earlier later : List ErrorClass} {lower : List Char} {code : Nat}
    (own : classOf lower later = code)
    (others : ∀ errorClass ∈ earlier, errorClass.code ≠ code) :
    classOf lower (earlier ++ later) = code ↔
      ∀ errorClass ∈ earlier, errorClass.occursIn lower = false := by
  induction earlier with
  | nil => simp [own]
  | cons first rest inductionHypothesis =>
      rw [List.forall_mem_cons] at others
      rw [List.cons_append, classOf, List.forall_mem_cons]
      by_cases occurs : first.occursIn lower = true
      · rw [if_pos occurs, occurs]
        constructor
        · intro same
          exact absurd same others.1
        · rintro ⟨absent, _⟩
          cases absent
      · rw [if_neg occurs, inductionHypothesis others.2]
        exact
          ⟨fun absent => ⟨Bool.eq_false_of_not_eq_true occurs, absent⟩,
            fun absent => absent.2⟩

/-- The characters with which every message of the error begins. -/
def EmbeddingError.lowerBeginning (error : EmbeddingError) : List Char :=
  error.beginning.toList.map Char.toLower

/-- No word of an earlier branch begins in the fixed part of the message. -/
theorem earlierWords_apart :
    ∀ error : EmbeddingError,
      (error.earlierClasses.all fun errorClass =>
        errorClass.words.all fun word =>
          apart word.toList error.lowerBeginning) =
        true := by
  intro error
  cases error <;> decide +kernel

theorem beginning_ascii :
    ∀ error : EmbeddingError,
      (error.beginning.toList.all fun character =>
        character.toNat < 128) = true := by
  intro error
  cases error <;> decide

theorem lower_message
    (error : EmbeddingError) (table : Lowercase) (text : String) :
    (table.toLowercase (error.message text)).toList =
      error.lowerBeginning ++
        table.lowerFrom error.beginning.toList
          (error.embedded text).toList := by
  have areAscii :
      ∀ character ∈ error.beginning.toList, character.toNat < 128 :=
    fun character member =>
      of_decide_eq_true
        (List.all_eq_true.mp (beginning_ascii error) character member)
  rw [Lowercase.toLowercase, String.toList_ofList,
    EmbeddingError.message, String.toList_append,
    lowerFrom_ascii table areAscii]
  rfl

/-- A class that comes before is decided by the embedded text alone. -/
theorem occursIn_message
    {error : EmbeddingError} {errorClass : ErrorClass}
    (isEarlier : errorClass ∈ error.earlierClasses) (rest : List Char) :
    errorClass.occursIn (error.lowerBeginning ++ rest) =
      errorClass.occursIn rest := by
  have allApart := List.all_eq_true.mp (earlierWords_apart error)
  have areApart := List.all_eq_true.mp (allApart errorClass isEarlier)
  have sameWord :
      ∀ word ∈ errorClass.words,
        containsWord word.toList (error.lowerBeginning ++ rest) =
          containsWord word.toList rest :=
    fun word member => containsWord_append (areApart word member) rest
  rw [Bool.eq_iff_iff, ErrorClass.occursIn, List.any_eq_true,
    ErrorClass.occursIn, List.any_eq_true]
  constructor
  · rintro ⟨word, member, contained⟩
    exact ⟨word, member, sameWord word member ▸ contained⟩
  · rintro ⟨word, member, contained⟩
    exact ⟨word, member, (sameWord word member).trans contained⟩

/-- Behind the earlier branches the message takes its own. -/
theorem own_class
    (error : EmbeddingError) (rest : List Char) :
    ∃ later,
      errorClasses = error.earlierClasses ++ later ∧
        classOf (error.lowerBeginning ++ rest) later = error.code ∧
          ∀ errorClass ∈ error.earlierClasses,
            errorClass.code ≠ error.code := by
  cases error with
  | sshProbeFailed =>
      refine ⟨errorClasses.drop 4, rfl, ?_, by decide⟩
      have probe :
          containsWord "ssh probe failed".toList
            (EmbeddingError.sshProbeFailed.lowerBeginning ++ rest) =
            true :=
        containsWord_mono (by decide +kernel) rest
      have occurs :
          ErrorClass.occursIn
            ⟨["network", "connection", "connect", "timeout", "timed out",
                "unreachable", "exhausted", "udp transport failed",
                "ssh probe failed"], networkFailure⟩
            (EmbeddingError.sshProbeFailed.lowerBeginning ++ rest) =
            true :=
        List.any_eq_true.mpr ⟨"ssh probe failed", by simp, probe⟩
      exact if_pos occurs
  | _ => exact ⟨[], rfl, rfl, by decide⟩

/-- The embedded text leaves the class alone exactly when it does not mislead
the classification. -/
theorem failure_code_iff
    (error : EmbeddingError) (table : Lowercase) (text : String) :
    (error.failure table text).code = error.code ↔
      ¬ error.Misled table text := by
  obtain ⟨later, isAll, own, others⟩ :=
    own_class error
      (table.lowerFrom error.beginning.toList
        (error.embedded text).toList)
  have isCode :
      (error.failure table text).code =
        classOf
          (error.lowerBeginning ++
            table.lowerFrom error.beginning.toList
              (error.embedded text).toList)
          (error.earlierClasses ++ later) := by
    rw [← isAll, ← lower_message, EmbeddingError.failure,
      CliFailure.fromError, classifyErrorMessage]
  rw [isCode, classOf_append_iff own others, EmbeddingError.Misled]
  constructor
  · rintro absent ⟨errorClass, isEarlier, occurs⟩
    have nowhere := absent errorClass isEarlier
    rw [occursIn_message isEarlier, occurs] at nowhere
    cases nowhere
  · intro notMisled errorClass isEarlier
    rw [occursIn_message isEarlier, ← Bool.not_eq_true]
    exact fun occurs => notMisled ⟨errorClass, isEarlier, occurs⟩

/-- For two texts the exit code is that of the error exactly when neither
contains a word of an earlier branch. -/
theorem exit_class_fixed_exactly
    (error : EmbeddingError) (table : Lowercase) (text other : String) :
    error.Fixed table text other ↔
      ¬ error.Misled table text ∧ ¬ error.Misled table other := by
  rw [← failure_code_iff, ← failure_code_iff]
  constructor
  · intro fixed
    exact ⟨fixed.own, fixed.same.symm.trans fixed.own⟩
  · rintro ⟨own, otherOwn⟩
    exact ⟨own.trans otherOwn.symm, own⟩

/-- What `ssh` writes when the connection is refused. -/
def refusedConnection : String :=
  "ssh: connect to host example port 22: Connection refused"

/-- A refused connection of `ssh` is taken for a conflict, and a missing file
for a failed check when it is named so. -/
theorem embedded_text_decides_class :
    (EmbeddingError.sshProbeFailed.failure .least refusedConnection).code =
        conflictRefusal ∧
      (EmbeddingError.fileMissing.failure .least "integrity.txt").code =
          integrityFailure ∧
        ¬ ∀ (error : EmbeddingError) (table : Lowercase)
            (text other : String), error.Fixed table text other := by
  have refused :
      (EmbeddingError.sshProbeFailed.failure .least
          refusedConnection).code =
        conflictRefusal := by
    decide +kernel
  refine ⟨refused, by decide +kernel, ?_⟩
  intro fixed
  have own := (fixed .sshProbeFailed .least refusedConnection "").own
  rw [refused] at own
  exact absurd own (by decide)

end Quiczilla
