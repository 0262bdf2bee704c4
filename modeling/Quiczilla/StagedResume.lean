import Quiczilla.InterruptedExchanges
import Quiczilla.KeptDestination

/-!
# Committing a staging file

A staging file that is as long as the source is kept as a whole.  Once its
fingerprint, and with a checksum its digest, has been compared it takes the
place of the destination, and no byte of the source is sent.
-/

namespace Quiczilla

open Foundation

/-- With both resume flags a staging file of whole chunks is offered to be kept
as it is. -/
theorem handleAccept_keepsPart
    (peer : Peer) {applied : AppliedAccept} {part : List UInt8}
    (large : resumeThresholdBytes ≤ applied.size)
    (offered : peer.coordinator.offeredResume = true)
    (resume : applied.accept.resume = true)
    (present : peer.files applied.partPath = some (.file part))
    (sized : part.length = applied.size)
    (chunks : alignedOffset applied.size applied.size = applied.size) :
    peer.handleAccept applied.accept applied.name applied.size .none =
      ((peer.withPartPath (some applied.partPath)).touch
            [applied.partPath] peer.files).offerResume
        (applied.job applied.size true peer.coordinator.offeredNumber)
        applied.partPath .none := by
  obtain ⟨accept, name, size⟩ := applied
  have sized : part.length = size := sized
  have isPart :
      peer.files.isPresent
          (getPartPath (destinationPath accept.saveDir name)) = true := by
    rw [FileStore.isPresent]
    exact Option.isSome_iff_exists.mpr ⟨_, present⟩
  have measured :
      peer.lengthOrZero
          (getPartPath (destinationPath accept.saveDir name)) .none =
        size := by
    have isLength :
        peer.files.length?
            (getPartPath (destinationPath accept.saveDir name)) =
          some part.length :=
      FileStore.length?_of_file present
    rw [Peer.lengthOrZero, isLength]
    exact sized
  have cut :
      (peer.withPartPath
            (some (getPartPath (destinationPath accept.saveDir name)))
          ).truncateTo
          (getPartPath (destinationPath accept.saveDir name)) size .none =
        (peer.withPartPath
              (some (getPartPath (destinationPath accept.saveDir name)))
            ).touch
          [getPartPath (destinationPath accept.saveDir name)]
          peer.files := by
    have isLength :
        (peer.withPartPath
              (some (getPartPath (destinationPath accept.saveDir name)))
            ).files.setLength
            (getPartPath (destinationPath accept.saveDir name)) size =
          some peer.files := by
      rw [← sized]
      exact FileStore.setLength_of_file present
    have works : Faults.none.truncate = false := rfl
    simp only [Peer.truncateTo, works, Bool.false_eq_true, if_false,
      isLength]
  have large : resumeThresholdBytes ≤ size := large
  have positive : 0 < size :=
    Nat.lt_of_lt_of_le resumeThresholdBytes_pos large
  have resume : accept.resume = true := resume
  have chunks : alignedOffset size size = size := chunks
  simp only [Peer.handleAccept, if_pos large, offered, resume, isPart,
    measured, chunks, if_pos positive, cut, Bool.and_self, if_true]
  rfl

/-- A source and a staging file of its size, whole chunks both. -/
structure Exchange.CanCommit
    (exchange : Exchange) (leftFiles rightFiles : Files)
    (source part : List UInt8) : Prop where
  offers : exchange.offer.resume = true
  accepts : exchange.accept.resume = true
  large : resumeThresholdBytes ≤ source.length
  chunks : alignedOffset source.length source.length = source.length
  sized : part.length = source.length
  isSource :
    leftFiles (components exchange.offer.path) = some (.file source)
  isPart :
    rightFiles (exchange.applied source.length).partPath =
      some (.file part)
  notDirectory :
    ∀ length,
      rightFiles (exchange.applied source.length).destPath ≠
        some (.directory length)
  parents :
    ∀ path ∈
        ((exchange.applied source.length).job source.length true
          0).ancestors,
      ∃ length, rightFiles path = some (.directory length)

section Committing

variable {exchange : Exchange} {leftFiles rightFiles : Files}
  {source part : List UInt8}

/-- The staging file is cut to its own length. -/
def Exchange.stagedTarget
    (exchange : Exchange) (rightFiles : Files) (source : List UInt8) :
    KeptTarget where
  usePart := true
  touched := [(exchange.applied source.length).partPath]
  files := rightFiles

/-- The files when the staging file has taken the place of the
destination. -/
def AppliedAccept.committed
    (applied : AppliedAccept) (before : Files) (part : List UInt8) : Files :=
  FileStore.put (FileStore.remove before applied.partPath) applied.destPath
    part

theorem Exchange.CanCommit.prepares
    (commits : exchange.CanCommit leftFiles rightFiles source part) :
    exchange.Prepares leftFiles rightFiles source part
      (exchange.stagedTarget rightFiles source) where
  positive := Nat.lt_of_lt_of_le resumeThresholdBytes_pos commits.large
  isSource := commits.isSource
  taken := by
    have isTarget :
        (exchange.keptJob source
            (exchange.stagedTarget rightFiles source)).targetWritePath =
          (exchange.applied source.length).partPath :=
      job_target_part _ _ _
    rw [isTarget]
    exact
      @handleAccept_keepsPart (exchange.taking rightFiles source)
        (exchange.applied source.length) part commits.large commits.offers
        commits.accepts commits.isPart commits.sized commits.chunks
  isTarget := by
    have isTarget :
        (exchange.keptJob source
            (exchange.stagedTarget rightFiles source)).targetWritePath =
          (exchange.applied source.length).partPath :=
      job_target_part _ _ _
    rw [isTarget]
    exact commits.isPart
  parents := commits.parents

/-- The checksum flags play no part in it. -/
theorem Exchange.CanCommit.withChecksum
    (commits : exchange.CanCommit leftFiles rightFiles source part)
    (sent received : Bool) :
    Exchange.CanCommit
      ⟨{ exchange.offer with checksum := sent },
        { exchange.accept with checksum := received }⟩
      leftFiles rightFiles source part where
  offers := commits.offers
  accepts := commits.accepts
  large := commits.large
  chunks := commits.chunks
  sized := commits.sized
  isSource := commits.isSource
  isPart := commits.isPart
  notDirectory := commits.notDirectory
  parents := commits.parents

theorem Exchange.CanCommit.kept
    (commits : exchange.CanCommit leftFiles rightFiles source part) :
    (exchange.applied source.length).kept rightFiles = part := by
  have isChunks :
      alignedOffset part.length (exchange.applied source.length).size =
        part.length := by
    rw [commits.sized]
    exact commits.chunks
  simp only [AppliedAccept.kept, commits.isPart, isChunks,
    List.take_length]

theorem Exchange.CanCommit.keeps
    (commits : exchange.CanCommit leftFiles rightFiles source part) :
    (exchange.applied source.length).kept rightFiles ≠ [] := by
  rw [commits.kept]
  apply List.ne_nil_of_length_pos
  rw [commits.sized]
  exact Nat.lt_of_lt_of_le resumeThresholdBytes_pos commits.large

/-- What is the same for the fingerprint and the digests takes the place of the
destination. -/
theorem staged_run
    (commits : exchange.CanCommit leftFiles rightFiles source part)
    (same : fingerprintOf part = fingerprintOf source)
    (agree :
      exchange.offer.checksum = true → exchange.accept.checksum = true →
        sha256Hex part = sha256Hex source) :
    ∃ labels link,
      Run linkStep exchange.Resumes (.initial leftFiles rightFiles) labels
          link ∧
        .transferComplete .completed ∈ link.left.events ∧
          .resumeOk ∈ link.right.handled ∧
            link.left.fileSent = [] ∧
              link.right.files =
                (exchange.applied source.length).committed rightFiles
                  part := by
  have isTarget :
      (exchange.keptVerifying source part
          (exchange.stagedTarget rightFiles source)).targetWritePath =
        (exchange.applied source.length).partPath :=
    job_target_part _ _ _
  have isDest :
      (exchange.keptVerifying source part
          (exchange.stagedTarget rightFiles source)).job.destPath =
        (exchange.applied source.length).destPath :=
    AppliedAccept.job_destPath _ _ _ _
  have renamed :
      (exchange.progressed rightFiles source part
            (exchange.stagedTarget rightFiles source)).files.rename
          (exchange.applied source.length).partPath
          (exchange.applied source.length).destPath =
        some
          ((exchange.applied source.length).committed rightFiles part) :=
    FileStore.rename_of_file commits.isPart commits.notDirectory
  have committed :
      (exchange.progressed rightFiles source part
            (exchange.stagedTarget rightFiles source)).commit
          (exchange.keptVerifying source part
            (exchange.stagedTarget rightFiles source)) false =
        some
          ((exchange.progressed rightFiles source part
                (exchange.stagedTarget rightFiles source)).touch
            [(exchange.applied source.length).partPath,
              (exchange.applied source.length).destPath]
            ((exchange.applied source.length).committed rightFiles
              part)) := by
    have staged :
        (exchange.keptVerifying source part
            (exchange.stagedTarget rightFiles source)).job.usePart =
          true :=
      rfl
    simp only [Peer.commit, staged, if_true, Bool.false_eq_true, if_false,
      isTarget, isDest, renamed, Option.map_some]
  exact prepared_run commits.prepares same agree committed

end Committing

/-! ## A staging file that shares its first 64 KiB with the source -/

/-- A save directory that holds a staging file for `a`. -/
def stagedFiles (content : List UInt8) : Files :=
  FileStore.put
    (fun path =>
      if path = components "in" then some (.directory 4096) else none)
    (components ("in/a" ++ partialFileSuffix)) content

theorem stagedFiles_paths (content : List UInt8) (size : Nat) :
    stagedFiles content (resumingAccept size).partPath =
        some (.file content) ∧
      stagedFiles content (resumingAccept size).destPath = none ∧
        stagedFiles content (components "in") =
          some (.directory 4096) := by
  obtain ⟨dest, part⟩ := resumingAccept_paths size
  rw [dest, part, stagedFiles]
  refine ⟨FileStore.put_same _ _ _, ?_, ?_⟩
  · rw [FileStore.put_other, if_neg] <;> decide +kernel
  · rw [FileStore.put_other, if_pos rfl]
    decide +kernel

theorem zerosThen_canCommit (rest : UInt8) :
    resumingExchange.CanCommit (soleSource (zerosThen 0))
      (stagedFiles (zerosThen rest)) (zerosThen 0) (zerosThen rest) := by
  have isApplied := resumingExchange_applied 0 rest
  obtain ⟨present, absent, isDirectory⟩ :=
    stagedFiles_paths (zerosThen rest) (zerosThen rest).length
  refine
    { offers := rfl
      accepts := rfl
      large := Nat.le_of_eq (length_zerosThen 0).symm
      chunks := ?_
      sized := (length_zerosThen rest).trans (length_zerosThen 0).symm
      isSource := FileStore.put_same _ _ _
      isPart := ?_
      notDirectory := ?_
      parents := ?_ }
  · rw [length_zerosThen]
    decide
  · rw [isApplied]
    exact present
  · intro length isDirectory
    rw [isApplied, absent] at isDirectory
    cases isDirectory
  · rw [isApplied, resumingAccept_ancestors]
    intro path member
    rw [List.mem_singleton.mp member]
    exact ⟨4096, isDirectory⟩

/-- A staging file with another end than the source is committed, as the
reconstruction says. -/
theorem completed_exchange_reconstructs_staged :
    ∃ labels link offset content,
      Run linkStep resumingExchange.Admits
          (.initial (soleSource (zerosThen 0)) (stagedFiles (zerosThen 1)))
          labels link ∧
        .transferComplete .completed ∈ link.left.events ∧
          .resumeOk ∈ link.right.handled ∧
            link.right.files
                (resumingExchange.applied (zerosThen 0).length).destPath =
              some (.file (zerosThen 1)) ∧
              resumingExchange.Reconstructs (stagedFiles (zerosThen 1))
                (zerosThen 0) link offset content := by
  have commits := zerosThen_canCommit 1
  have same : fingerprintOf (zerosThen 1) = fingerprintOf (zerosThen 0) := by
    rw [fingerprintOf_zerosThen, fingerprintOf_zerosThen]
  obtain ⟨labels, link, run, completed, resumed, -, files⟩ :=
    staged_run commits same (fun checksum => by cases checksum)
  have admits := run.weaken fun _ _ resumes => resumes.1.1
  obtain ⟨offset, content, reconstructs⟩ :=
    completed_exchange_reconstructs commits.isSource admits completed
  refine
    ⟨labels, link, offset, content, admits, completed, resumed, ?_,
      reconstructs⟩
  rw [files]
  exact FileStore.put_same _ _ _

/-! ## A staging file that is resumed twice -/

/-- The first exchange breaks off when the staging file is about to be opened,
the second one commits it. -/
theorem interrupted_exchanges_resume_staged :
    ∃ first second link,
      Run Link.attempt
          (fun _ attempt =>
            attempt.Offers (zerosThen 0)
              (resumingExchange.applied (zerosThen 0).length).destPath)
          (.initial (soleSource (zerosThen 0)) (stagedFiles (zerosThen 0)))
          [first, second] link ∧
        .transferComplete .completed ∈ link.left.events ∧
          .resumeOk ∈ link.right.handled ∧
            link.right.files
                (resumingExchange.applied (zerosThen 0).length).destPath =
              some (.file (zerosThen 0)) := by
  have commits := zerosThen_canCommit 0
  have isApplied := resumingExchange_applied 0 0
  obtain ⟨present, absent, -⟩ :=
    stagedFiles_paths (zerosThen 0) (zerosThen 0).length
  have resumable :
      Resumable (zerosThen 0)
        (resumingExchange.applied (zerosThen 0).length).destPath
        (stagedFiles (zerosThen 0)) := by
    rw [isApplied]
    constructor
    · intro content isStaged
      have isStaged :
          stagedFiles (zerosThen 0)
              (resumingAccept (zerosThen 0).length).partPath =
            some (.file content) :=
        isStaged
      rw [present] at isStaged
      cases isStaged
      exact List.prefix_rfl
    · intro _ content isFinished
      rw [absent] at isFinished
      cases isFinished
  obtain ⟨labels, link, run, completed, resumed, -⟩ :=
    staged_run commits rfl (fun _ _ => rfl)
  have broken :
      (Link.initial (soleSource (zerosThen 0))
            (stagedFiles (zerosThen 0))).attempt
          ⟨resumingExchange, soleSource (zerosThen 0), _⟩ =
        some _ :=
    ((agreeing_run commits.prepares rfl).weaken
      fun _ _ works => works.1.1).guardedReplay_eq
  have repeated :
      (Link.mk
            (resumingExchange.sending (soleSource (zerosThen 0))
              (zerosThen 0))
            (resumingExchange.resuming (stagedFiles (zerosThen 0))
              (zerosThen 0)
              (resumingExchange.stagedTarget (stagedFiles (zerosThen 0))
                (zerosThen 0)))).attempt
          ⟨resumingExchange, soleSource (zerosThen 0), labels⟩ =
        some link :=
    (run.weaken fun _ _ resumes => resumes.1.1).guardedReplay_eq
  have attempts :=
    @Run.cons _ _ Link.attempt
      (fun _ attempt =>
        attempt.Offers (zerosThen 0)
          (resumingExchange.applied (zerosThen 0).length).destPath)
      _ _ _ _ _ ⟨commits.isSource, rfl⟩ broken
      (Run.single ⟨commits.isSource, rfl⟩ repeated)
  exact
    ⟨_, _, link, attempts, completed, resumed,
      (interrupted_exchanges_resume resumable attempts).2 completed⟩

end Quiczilla
