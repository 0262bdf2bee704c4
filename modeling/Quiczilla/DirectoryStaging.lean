import Quiczilla.DirectoryAtomicity

/-!
# What becomes of the staging files

`receive_directory` creates a staging file for each file frame and renames it
when the content is complete.  The history variable of this module lists the
paths of the staging files that were created and not renamed since; a receive
leaves one behind if it returns while there is still something at such a path.

The one error behind which the program removes the staging file is the
mismatch of a digest.  Every other error between `File::create` and the rename
leaves it.
-/

namespace Quiczilla

open Foundation

/-- `File::create` adds a staging file, the rename to the destination takes it
away. -/
def noteStaging (receiver : DirectoryReceiver) (_ : DirectoryReceiveLabel)
    (next : DirectoryReceiver) (staged : List Location) : List Location :=
  match receiver.phase, next.phase with
  | .placing _ _ _, .copying _ _ staging _ _ => staged ++ [staging]
  | .renaming _ _ staging, .framing _ => staged.erase staging
  | _, _ => staged

/-- `receive_directory` and its staging files. -/
def stagingStep (base : Location) :
    DirectoryReceiver × List Location → DirectoryReceiveLabel →
      Option (DirectoryReceiver × List Location) :=
  withHistory (directoryReceiveStep base) noteStaging

/-- The receive returned. -/
def DirectoryReceivePhase.Returned : DirectoryReceivePhase → Prop
  | .done => True
  | .failed _ => True
  | _ => False

/-- There is nothing at these paths. -/
def NothingAt (tree : FileTree) (paths : List Location) : Prop :=
  ∀ path ∈ paths, ∀ node, tree.symlinkMetadata path ≠ .ok node

/-- A receive that returned has left no staging file. -/
def LeavesNoStaging
    (watched : DirectoryReceiver × List Location) : Prop :=
  watched.1.phase.Returned → NothingAt watched.1.tree watched.2

/-- As long as there is a staging file, nothing goes wrong that the program
does not clean up: the stream ends neither in the content nor in the digest, no
write, flush or rename fails, and neither does the removal behind a
mismatch. -/
def StagingCleared
    (watched : DirectoryReceiver × List Location)
    (label : DirectoryReceiveLabel) : Prop :=
  match watched.1.phase, label with
  | .copying _ _ _ _ _, .copyChunk _ written =>
      watched.1.input ≠ [] ∧ written = none
  | .copying _ _ _ _ _, .aborted _ => False
  | .copying _ head staging _ copied,
      .finishContent flushFails removeFails =>
      flushFails = false ∧
        (head.flag ≠ 0 →
          32 ≤ watched.1.input.length ∧
            (sha256 copied ≠ watched.1.input.take 32 →
              removeFails = false ∧
                (watched.1.tree.removeFile staging).isOk = true))
  | .renaming root head staging, .renameStaging fails =>
      fails = false ∧
        (watched.1.tree.rename staging
            (childLocation root head.relative)).isOk =
          true
  | _, _ => True

instance (watched : DirectoryReceiver × List Location)
    (label : DirectoryReceiveLabel) :
    Decidable (StagingCleared watched label) := by
  delta StagingCleared
  split <;> infer_instance

/-! ## The invariant -/

/-- The staging files at this point. -/
def StagedInPhase (tree : FileTree) (staged : List Location) :
    DirectoryReceivePhase → Prop
  | .copying _ _ staging _ _ => staged = [staging]
  | .renaming _ _ staging => staged = [staging]
  | .failed _ => NothingAt tree staged
  | _ => staged = []

/-- No staging file is open in the phase. -/
def DirectoryReceivePhase.Apart : DirectoryReceivePhase → Prop
  | .copying _ _ _ _ _ => False
  | .renaming _ _ _ => False
  | _ => True

theorem nothingAt_nil (tree : FileTree) : NothingAt tree [] :=
  fun _ member => absurd member List.not_mem_nil

theorem stagedInPhase_nil
    (tree : FileTree) {phase : DirectoryReceivePhase}
    (apart : phase.Apart) : StagedInPhase tree [] phase := by
  rw [StagedInPhase.eq_def]
  split
  · exact apart.elim
  · exact apart.elim
  · exact nothingAt_nil tree
  · rfl

theorem noteStaging_outside
    {receiver : DirectoryReceiver}
    (notPlacing :
      ∀ root parent head, receiver.phase ≠ .placing root parent head)
    (notRenaming :
      ∀ root head staging, receiver.phase ≠ .renaming root head staging)
    (label : DirectoryReceiveLabel) (next : DirectoryReceiver)
    (staged : List Location) :
    noteStaging receiver label next staged = staged := by
  rw [noteStaging.eq_def]
  split
  · rename_i isPlacing _
    exact absurd isPlacing (notPlacing _ _ _)
  · rename_i isRenaming _
    exact absurd isRenaming (notRenaming _ _ _)
  · rfl

/-! ## Steps without a staging file -/

section Apart

variable (receiver : DirectoryReceiver)

theorem apart_openStream (base : Location) :
    (receiver.openStream base).phase.Apart := by
  rw [DirectoryReceiver.openStream]
  split
  · trivial
  · split
    · trivial
    · trivial

theorem apart_inspectRoot (root : Location) (lookupFails : Bool) :
    (receiver.inspectRoot root lookupFails).phase.Apart := by
  rw [DirectoryReceiver.inspectRoot.eq_def]
  split
  · trivial
  · trivial
  · trivial

theorem apart_createRoot
    (root : Location) (fails : Location → Bool) (lookupFails : Bool) :
    (receiver.createRoot root fails lookupFails).phase.Apart := by
  rw [DirectoryReceiver.createRoot]
  split
  · trivial
  · exact apart_inspectRoot _ _ _

theorem apart_enter
    (root current : Location) (names : List String)
    (file : Option FileHead) :
    (receiver.enter root current names file).phase.Apart := by
  rw [DirectoryReceiver.enter.eq_def]
  split
  · trivial
  · trivial
  · trivial

theorem apart_createSafeDirectory
    (root : Location) (relative : String) (file : Option FileHead) :
    (receiver.createSafeDirectory root relative file).phase.Apart := by
  rw [DirectoryReceiver.createSafeDirectory]
  split
  · trivial
  · exact apart_enter _ _ _ _ _

theorem apart_beginFile (root : Location) (head : FileHead) :
    (receiver.beginFile root head).phase.Apart := by
  rw [DirectoryReceiver.beginFile]
  split
  · trivial
  · split
    · exact apart_enter _ _ _ _ _
    · exact apart_createSafeDirectory _ _ _ _

theorem apart_readFrame
    {root : Location} (isFraming : receiver.phase = .framing root) :
    (receiver.readFrame root).phase.Apart := by
  rw [DirectoryReceiver.readFrame]
  split
  · trivial
  · exact apart_createSafeDirectory _ _ _ _
  · change receiver.phase.Apart
    rw [isFraming]
    trivial
  · change receiver.phase.Apart
    rw [isFraming]
    trivial
  · exact apart_beginFile _ _ _
  · split
    · trivial
    · trivial

theorem apart_makeDirectory
    (root current : Location) (name : String) (rest : List String)
    (file : Option FileHead) :
    (receiver.makeDirectory root current name rest file).phase.Apart := by
  rw [DirectoryReceiver.makeDirectory]
  split
  · trivial
  · trivial
  · exact apart_enter _ _ _ _ _
  · split
    · trivial
    · exact apart_enter _ _ _ _ _
  · trivial

end Apart

/-! ## Steps with a staging file -/

/-- The list of the staging files fits the phase. -/
def StagingKnown (watched : DirectoryReceiver × List Location) : Prop :=
  StagedInPhase watched.1.tree watched.2 watched.1.phase

section Steps

variable {base : Location} {receiver : DirectoryReceiver}
  {staged : List Location}

theorem staged_createStaging
    {root parent : Location} {head : FileHead}
    (isPlacing : receiver.phase = .placing root parent head)
    (known : StagingKnown (receiver, staged))
    (lookupFails createFails : Bool) (label : DirectoryReceiveLabel) :
    StagingKnown
      (receiver.createStaging root parent head lookupFails createFails,
        noteStaging receiver label
          (receiver.createStaging root parent head lookupFails createFails)
          staged) := by
  have noneStaged : staged = [] := by
    rw [StagingKnown, isPlacing] at known
    exact known
  subst noneStaged
  have failed (reason : String) :
      StagingKnown
        (receiver.fail reason,
          noteStaging receiver label (receiver.fail reason) []) := by
    have same :
        noteStaging receiver label (receiver.fail reason) [] = [] := by
      rw [noteStaging, isPlacing]
      rfl
    rw [same]
    exact nothingAt_nil _
  rw [DirectoryReceiver.createStaging.eq_def]
  split
  · exact failed _
  · split
    · exact failed _
    · split
      · exact failed _
      · rw [noteStaging, isPlacing]
        rfl

theorem cleared_copyChunk
    {root : Location} {head : FileHead} {staging opened : Location}
    {copied : List UInt8}
    (isCopying :
      receiver.phase = .copying root head staging opened copied)
    (known : StagingKnown (receiver, staged)) {limit : Nat}
    {written : Option Nat}
    (cleared :
      StagingCleared (receiver, staged) (.copyChunk limit written)) :
    StagingKnown
      (receiver.copyChunk root head staging opened copied limit written,
        staged) := by
  simp only [StagingCleared, isCopying] at cleared
  obtain ⟨notEnded, rfl⟩ := cleared
  simp only [DirectoryReceiver.copyChunk]
  have something :
      receiver.input.take
          (max 1
            (min limit (min (head.size - copied.length) fileChunkSize))) ≠
        [] := by
    intro isNil
    rcases List.take_eq_nil_iff.mp isNil with isZero | isEmpty
    · omega
    · exact notEnded isEmpty
  rw [if_neg something]
  rw [StagingKnown, isCopying] at known
  exact known

theorem cleared_finishContent
    {root : Location} {head : FileHead} {staging opened : Location}
    {copied : List UInt8}
    (isCopying :
      receiver.phase = .copying root head staging opened copied)
    (known : StagingKnown (receiver, staged))
    {flushFails removeFails : Bool}
    (cleared :
      StagingCleared (receiver, staged)
        (.finishContent flushFails removeFails)) :
    StagingKnown
      (receiver.finishContent root head staging copied flushFails
          removeFails,
        staged) := by
  simp only [StagingCleared, isCopying] at cleared
  obtain ⟨rfl, whole⟩ := cleared
  have isStaged : staged = [staging] := by
    rw [StagingKnown, isCopying] at known
    exact known
  subst isStaged
  rw [DirectoryReceiver.finishContent, if_neg Bool.false_ne_true]
  split
  · rfl
  · rename_i flagged
    obtain ⟨long, removes⟩ := whole flagged
    rw [readExact, if_pos long]
    dsimp only
    split
    · rfl
    · rename_i mismatch
      obtain ⟨rfl, removable⟩ := removes mismatch
      rw [DirectoryReceiver.discard.eq_def]
      cases removed : receiver.tree.removeFile staging with
      | error error =>
          rw [removed] at removable
          cases removable
      | ok result =>
          obtain ⟨location, next⟩ := result
          intro path member node
          rw [List.mem_singleton.mp member]
          exact FileTree.symlinkMetadata_removed removed node

theorem cleared_renameStaging
    {root : Location} {head : FileHead} {staging : Location}
    (isRenaming : receiver.phase = .renaming root head staging)
    (known : StagingKnown (receiver, staged)) {fails : Bool}
    (cleared :
      StagingCleared (receiver, staged) (.renameStaging fails))
    (label : DirectoryReceiveLabel) :
    StagingKnown
      (receiver.renameStaging root head staging fails,
        noteStaging receiver label
          (receiver.renameStaging root head staging fails) staged) := by
  simp only [StagingCleared, isRenaming] at cleared
  obtain ⟨rfl, renamable⟩ := cleared
  have isStaged : staged = [staging] := by
    rw [StagingKnown, isRenaming] at known
    exact known
  subst isStaged
  rw [DirectoryReceiver.renameStaging.eq_def]
  cases renamed :
    receiver.tree.rename staging (childLocation root head.relative) with
  | error error =>
      rw [renamed] at renamable
      cases renamable
  | ok result =>
      rw [noteStaging, isRenaming]
      exact List.erase_cons_head staging []

/-- Every admitted step keeps the invariant. -/
theorem staging_step
    (known : StagingKnown (receiver, staged))
    {label : DirectoryReceiveLabel}
    (cleared : StagingCleared (receiver, staged) label)
    {next : DirectoryReceiver}
    (stepped : directoryReceiveStep base receiver label = some next) :
    StagingKnown (next, noteStaging receiver label next staged) := by
  -- a step between two phases without a staging file
  have outside (noneStaged : staged = [])
      (notPlacing :
        ∀ root parent head, receiver.phase ≠ .placing root parent head)
      (notRenaming :
        ∀ root head staging, receiver.phase ≠ .renaming root head staging)
      (apart : next.phase.Apart) :
      StagingKnown (next, noteStaging receiver label next staged) := by
    rw [noteStaging_outside notPlacing notRenaming, noneStaged]
    exact stagedInPhase_nil _ apart
  rw [StagingKnown] at known
  rw [directoryReceiveStep.eq_def] at stepped
  split at stepped
  · rename_i isPhase
    cases stepped
    simp only [isPhase] at known
    exact
      outside known (by simp [isPhase]) (by simp [isPhase])
        (apart_openStream _ _)
  · rename_i isPhase
    cases stepped
    simp only [isPhase] at known
    exact
      outside known (by simp [isPhase]) (by simp [isPhase])
        (apart_createRoot _ _ _ _)
  · rename_i isPhase
    cases stepped
    simp only [isPhase] at known
    exact
      outside known (by simp [isPhase]) (by simp [isPhase])
        (apart_readFrame _ isPhase)
  · rename_i isPhase
    simp only [isPhase] at known
    split at stepped
    · cases stepped
      exact
        outside known (by simp [isPhase]) (by simp [isPhase]) trivial
    · cases stepped
      exact
        outside known (by simp [isPhase]) (by simp [isPhase])
          (apart_makeDirectory _ _ _ _ _ _)
  · rename_i isPhase
    cases stepped
    exact staged_createStaging isPhase known _ _ _
  · rename_i isPhase
    split at stepped
    · cases stepped
      rw [noteStaging_outside (by simp [isPhase]) (by simp [isPhase])]
      exact cleared_copyChunk isPhase known cleared
    · cases stepped
  · rename_i isPhase
    split at stepped
    · cases stepped
    · cases stepped
      rw [noteStaging_outside (by simp [isPhase]) (by simp [isPhase])]
      exact cleared_finishContent isPhase known cleared
  · rename_i isPhase
    cases stepped
    exact cleared_renameStaging isPhase known cleared _
  · split at stepped
    · rename_i reads
      cases stepped
      cases isPhase : receiver.phase with
      | opening =>
          simp only [isPhase] at known
          exact
            outside known (by simp [isPhase]) (by simp [isPhase]) trivial
      | framing root =>
          simp only [isPhase] at known
          exact
            outside known (by simp [isPhase]) (by simp [isPhase]) trivial
      | copying root head staging opened copied =>
          simp only [StagingCleared, isPhase] at cleared
      | _ => simp [DirectoryReceiver.reads, isPhase] at reads
    · cases stepped
  · cases stepped

end Steps

theorem StagingKnown.leavesNoStaging
    {watched : DirectoryReceiver × List Location}
    (known : StagingKnown watched) : LeavesNoStaging watched := by
  intro returned
  rw [StagingKnown] at known
  cases isPhase : watched.1.phase with
  | done =>
      rw [isPhase] at known
      change watched.2 = [] at known
      rw [known]
      exact nothingAt_nil _
  | failed reason =>
      rw [isPhase] at known
      exact known
  | _ =>
      rw [isPhase] at returned
      exact returned.elim

/-- A receive in which nothing goes wrong between the creation of a staging
file and its rename leaves none behind, whatever it returns. -/
theorem directory_receive_leaves_no_staging
    (base : Location) (tree : FileTree) (stream : List UInt8)
    (labels : List DirectoryReceiveLabel)
    (watched : DirectoryReceiver × List Location)
    (run :
      Run (stagingStep base) StagingCleared (.start tree stream, []) labels
        watched) :
    LeavesNoStaging watched := by
  have known :=
    run.preserves StagingKnown
      (fun source label target known cleared stepped => by
        obtain ⟨stepped, noted⟩ := withHistory_eq_some.mp stepped
        have isTarget :
            target =
              (target.1, noteStaging source.1 label target.1 source.2) :=
          Prod.ext rfl noted
        rw [isTarget]
        exact staging_step known cleared stepped)
      rfl
  exact known.leavesNoStaging

theorem directory_receive_leaves_home_clean :
    ∃ watched,
      Run (stagingStep ["home"]) StagingCleared
          (.start emptyHome oneFileStream, []) oneFileLabels watched ∧
        watched.1.phase = .done ∧ LeavesNoStaging watched := by
  have ran :
      (guardedReplay (stagingStep ["home"]) StagingCleared
          (.start emptyHome oneFileStream, []) oneFileLabels).map
          (fun watched => watched.1.phase) =
        some .done := by
    decide +kernel
  obtain ⟨watched, reached, finished⟩ := Option.map_eq_some_iff.mp ran
  have run := run_of_guardedReplay reached
  exact
    ⟨watched, run, finished,
      directory_receive_leaves_no_staging ["home"] emptyHome oneFileStream
        oneFileLabels watched run⟩

/-- The stream ends where the content of the file begins. -/
def cutStream : List UInt8 :=
  encodeStart "d" ++ encodeFileHead "a" 1 0

def cutLabels : List DirectoryReceiveLabel :=
  [.openStream, .createRoot (fun _ => false) false, .readFrame,
    .createStaging false false, .copyChunk 1 none]

/-- The staging file stays in the destination. -/
theorem cut_staging_left :
    ∃ watched,
      Run (stagingStep ["home"]) anyStep (.start emptyHome cutStream, [])
          cutLabels watched ∧
        watched.1.phase = .failed "directory transfer ended inside file a" ∧
          watched.1.tree ["home", "d", ".a.quic-part"] =
              some (.file []) ∧
            ¬LeavesNoStaging watched := by
  have ran :
      (replay (stagingStep ["home"]) (.start emptyHome cutStream, [])
          cutLabels).map
          (fun watched =>
            (watched.1.phase,
              watched.1.tree ["home", "d", ".a.quic-part"], watched.2,
              watched.1.tree.symlinkMetadata
                ["home", "d", ".a.quic-part"])) =
        some
          (.failed "directory transfer ended inside file a",
            some (.file []), [["home", "d", ".a.quic-part"]],
            .ok (.file [])) := by
    decide +kernel
  obtain ⟨watched, reached, same⟩ := Option.map_eq_some_iff.mp ran
  injection same with failed same
  injection same with isFile same
  injection same with isStaged isThere
  refine ⟨watched, run_of_replay reached, failed, isFile, ?_⟩
  intro leaves
  have returned : watched.1.phase.Returned := by
    rw [failed]
    trivial
  have nothing := leaves returned ["home", "d", ".a.quic-part"]
  rw [isStaged] at nothing
  exact nothing List.mem_cons_self _ isThere

end Quiczilla
