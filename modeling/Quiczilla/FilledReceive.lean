import Quiczilla.Foundation.FilledStore
import Quiczilla.OfferBinding
import Quiczilla.SoleReceive

/-!
# Receiving onto a front of the source

If what a receive finds is a front of what it is promised, it leaves fronts
only: whenever it ends, the next receive finds the same.
-/

namespace Quiczilla

open Foundation

variable {source : List UInt8} {destPath : UnixPath}
  {before files next : Files}

/-- Whatever is kept of these files is a front of the source: the staging file
is one, and so is a destination of its length. -/
structure Resumable
    (source : List UInt8) (destPath : UnixPath) (files : Files) :
    Prop where
  staged : files.Fronts source (getPartPath destPath)
  finished :
    (files.length? destPath).getD 0 = source.length →
      files.Fronts source destPath

theorem Resumable.of_fills
    (resumable : Resumable source destPath files)
    (fills : files.Fills source next) :
    Resumable source destPath next where
  staged := resumable.staged.of_fills fills
  finished measured := by
    rcases fills destPath with same | isFront
    · have isFront := resumable.finished
      rw [FileStore.length?, ← same, ← FileStore.length?] at isFront
      intro content present
      rw [same] at present
      exact isFront measured content present
    · exact isFront

/-- A destination of the length of the source is the source. -/
theorem Resumable.dest_eq
    {content : List UInt8} (resumable : Resumable source destPath files)
    (present : files destPath = some (.file content))
    (sized : content.length = source.length) : content = source := by
  have measured : (files.length? destPath).getD 0 = source.length := by
    rw [FileStore.length?_of_file present]
    exact sized
  exact (resumable.finished measured content present).eq_of_length sized

/-- What the job keeps is a front of the source. -/
def RecvJob.Resumes
    (source : List UInt8) (files : Files) (job : RecvJob) : Prop :=
  0 < job.resumeOffset → files.Fronts source job.targetWritePath

theorem RecvJob.Resumes.of_fills
    {job : RecvJob} (resumes : job.Resumes source files)
    (fills : files.Fills source next) : job.Resumes source next :=
  fun positive => (resumes positive).of_fills fills

theorem resumes_fromZero
    {job : RecvJob} (source : List UInt8) (files : Files)
    (fromZero : job.resumeOffset = 0) : job.Resumes source files := by
  intro positive
  rw [fromZero] at positive
  exact absurd positive (Nat.lt_irrefl 0)

/-- Nothing but fronts of the source has been written, and the unfinished
receive is about to write one. -/
structure RecvSide.Filling
    (source : List UInt8) (before : Files) (side : RecvSide) : Prop where
  files : before.Fills source side.files
  resuming :
    ∀ job, side.pendingResumeRecv = some job →
      job.Resumes source side.files
  queued : ∀ job ∈ side.recvQueue, job.Resumes source side.files
  opening :
    ∀ job, side.receiver = .opening job → job.Resumes source side.files
  receiving :
    ∀ current, side.receiver = .receiving current →
      side.files.Fronts source current.targetWritePath

namespace RecvSide.Filling

variable {side : RecvSide}

/-- The receive task has nothing to do. -/
theorem of_inactive
    (fills : before.Fills source side.files)
    (noneActive : side.receiver.job? = none)
    (resumes :
      ∀ job ∈ side.pendingResumeRecv.toList ++ side.recvQueue,
        job.Resumes source side.files) :
    side.Filling source before where
  files := fills
  resuming := by
    intro job waiting
    apply resumes
    rw [waiting]
    exact List.mem_append_left _ List.mem_cons_self
  queued job member := resumes job (List.mem_append_right _ member)
  opening := by
    intro job phase
    rw [phase] at noneActive
    cases noneActive
  receiving := by
    intro current phase
    rw [phase] at noneActive
    cases noneActive

theorem of_one
    {job : RecvJob} (fills : before.Fills source side.files)
    (noneActive : side.receiver.job? = none)
    (one : side.pendingResumeRecv.toList ++ side.recvQueue = [job])
    (resumes : job.Resumes source side.files) :
    side.Filling source before := by
  apply of_inactive fills noneActive
  rw [one]
  intro other member
  rw [List.mem_singleton.mp member]
  exact resumes

theorem of_active
    (fills : before.Fills source side.files)
    (noneWaiting : side.pendingResumeRecv = none)
    (noneQueued : side.recvQueue = [])
    (opening :
      ∀ job, side.receiver = .opening job →
        job.Resumes source side.files)
    (receiving :
      ∀ current, side.receiver = .receiving current →
        side.files.Fronts source current.targetWritePath) :
    side.Filling source before where
  files := fills
  resuming := by
    rw [noneWaiting]
    nofun
  queued := by
    rw [noneQueued]
    nofun
  opening := opening
  receiving := receiving

end RecvSide.Filling

/-! ## The coordination loop -/

variable {applied : AppliedAccept} {earlier : List Receipt}

/-- Accepting an offer at rest keeps a front of the source, if anything. -/
theorem acceptEffect_filling
    {faults : Faults} {side after : RecvSide}
    (atRest : side.unfinished = [])
    (resumable : Resumable source applied.destPath side.files)
    (sized : applied.size = source.length)
    (effect : AcceptEffect applied faults side after) :
    after.Filling source side.files := by
  obtain ⟨noneWaiting, noneQueued, noneActive⟩ :=
    unfinished_eq_nil.mp atRest
  have queues (job : RecvJob) :
      side.pendingResumeRecv.toList ++ (side.recvQueue ++ [job]) =
        [job] := by
    rw [noneWaiting, noneQueued]
    rfl
  have waits (job : RecvJob) :
      (some job).toList ++ side.recvQueue = [job] := by
    rw [noneQueued]
    rfl
  have isStaged : side.files.Fronts source applied.partPath :=
    resumable.staged
  cases effect with
  | small offer _ =>
      exact
        RecvSide.Filling.of_one (FileStore.Fills.refl source _) noneActive
          (queues _) (resumes_fromZero source _ rfl)
  | fresh offer _ =>
      exact
        RecvSide.Filling.of_one (FileStore.Fills.refl source _) noneActive
          (queues _) (resumes_fromZero source _ rfl)
  | keepPart offer existing _ _ _ _ _ =>
      refine
        RecvSide.Filling.of_one (FileStore.Fills.refl source _) noneActive
          (waits _) fun _ => ?_
      rw [job_target_part]
      exact isStaged
  | cutPart offer existing cut _ _ _ measured succeeded =>
      have fills : side.files.Fills source cut :=
        FileStore.fills_setLength isStaged measured
          (alignedOffset_le existing applied.size).1 succeeded
      refine
        RecvSide.Filling.of_one fills noneActive (waits _) fun _ => ?_
      rw [job_target_part]
      exact isStaged.of_fills fills
  | keepDest offer _ _ _ _ measured =>
      refine
        RecvSide.Filling.of_one (FileStore.Fills.refl source _) noneActive
          (waits _) fun _ => ?_
      rw [job_target_dest]
      exact resumable.finished (measured.trans sized)

theorem loopEffect_filling
    {peer : Peer} {label : PeerLabel} {after : RecvSide}
    (sole : peer.recvSide.Sole before applied earlier)
    (filling : peer.recvSide.Filling source files)
    (noAccept : peer.applied label = none)
    (effect : LoopEffect peer label after) :
    after.Filling source files := by
  -- An answer moves the waiting job into the empty queue.
  have moves {job other : RecvJob} {side : RecvSide}
      (resuming : peer.coordinator.pendingResumeRecv = some job)
      (fills : files.Fills source side.files)
      (cleared : side.pendingResumeRecv = none)
      (queue : side.recvQueue = peer.recvQueue ++ [other])
      (receiver : side.receiver = peer.receiver)
      (resumes : other.Resumes source side.files) :
      side.Filling source files := by
    obtain ⟨noneQueued, noneActive, _⟩ := sole.waiting resuming
    have noneQueued : peer.recvQueue = [] := noneQueued
    refine RecvSide.Filling.of_one fills ?_ ?_ resumes
    · rw [receiver]
      exact noneActive
    · rw [cleared, queue, noneQueued]
      rfl
  cases effect with
  | quiet _ => exact filling
  | accepted other faults next isApplied _ _ =>
      rw [noAccept] at isApplied
      cases isApplied
  | resumed job _ _ resuming =>
      exact
        moves resuming filling.files rfl rfl rfl
          (filling.resuming job resuming)
  | restarted job _ _ resuming =>
      exact
        moves resuming filling.files rfl rfl rfl
          (resumes_fromZero source _ rfl)
  | recreated job partPath created _ _ resuming _ succeeded =>
      exact
        moves resuming
          (filling.files.trans (FileStore.fills_create succeeded)) rfl rfl
          rfl (resumes_fromZero source _ rfl)

/-! ## The receive task -/

theorem openTarget_fills
    {job : RecvJob} {made opened : Files}
    (targetOpened : job.openTarget made = some opened) :
    made.Fills source opened := by
  unfold RecvJob.openTarget at targetOpened
  split at targetOpened
  · exact FileStore.fills_openWrite targetOpened
  · exact FileStore.fills_create targetOpened

/-- The target that has been opened is a front of the source. -/
theorem openTarget_fronts
    {job : RecvJob} {made opened : Files}
    (resumes : job.Resumes source made)
    (targetOpened : job.openTarget made = some opened) :
    opened.Fronts source job.targetWritePath := by
  have fills := @openTarget_fills source job made opened targetOpened
  unfold RecvJob.openTarget at targetOpened
  split at targetOpened
  · rename_i positive
    exact (resumes positive).of_fills fills
  · obtain ⟨rfl, -⟩ := FileStore.create_eq_some targetOpened
    intro content present
    rw [FileStore.put_same] at present
    cases present
    exact List.nil_prefix

/-- The chunk that is stored next is what follows in the source. -/
theorem Receiving.Matches.follows
    {current : Receiving} {chunk : List UInt8} {rest : List (List UInt8)}
    (matching : current.Matches source)
    (queued : current.chunks = chunk :: rest) :
    chunk <+: source.drop current.position := by
  have isTaken :
      current.stored ++ chunk <+:
        source.drop current.job.resumeOffset := by
    have taken := matching.taken
    rw [queued, List.flatten_cons, ← List.append_assoc] at taken
    exact
      (List.prefix_append _ _).trans (taken ▸ List.take_prefix _ _)
  obtain ⟨more, isMore⟩ := isTaken
  refine ⟨more, ?_⟩
  rw [Receiving.position, ← List.drop_drop, ← isMore, List.append_assoc,
    List.drop_left]

/-- Storing the front of the next chunk fills the target. -/
theorem storeBytes_fills
    {peer : Peer} {current : Receiving} {bytes chunk : List UInt8}
    {rest : List (List UInt8)}
    (written : current.Written before peer.files)
    (matching : current.Matches source)
    (isFront : peer.files.Fronts source current.targetWritePath)
    (queued : current.chunks = chunk :: rest) (isBytes : bytes <+: chunk) :
    peer.files.Fills source (peer.storeBytes current bytes).files := by
  obtain ⟨content, present, onDisk⟩ := written.onDisk
  have reached := onDisk.reached
  rw [written.kept] at reached
  exact
    FileStore.fills_writeAt isFront present reached
      (isBytes.trans (matching.follows queued))

/-- A step that leaves the active receive without a successor. -/
theorem RecvSide.Filling.ended
    {job : RecvJob} {peer : Peer} {side : RecvSide}
    (filling : peer.recvSide.Filling source files)
    (sole : peer.recvSide.Sole before applied earlier)
    (isActive : peer.receiver.job? = some job)
    (filled : peer.files.Fills source side.files)
    (waiting :
      side.pendingResumeRecv = peer.coordinator.pendingResumeRecv)
    (queue : side.recvQueue = peer.recvQueue)
    (ended : side.receiver.job? = none) : side.Filling source files := by
  obtain ⟨noneWaiting, noneQueued, _⟩ := sole.active isActive
  apply RecvSide.Filling.of_inactive (filling.files.trans filled) ended
  rw [waiting, queue]
  change ∀ job ∈ peer.recvSide.pendingResumeRecv.toList ++
    peer.recvSide.recvQueue, _
  rw [noneWaiting, noneQueued]
  nofun

/-- A step of the running receive. -/
theorem RecvSide.Filling.running
    {current other : Receiving} {peer : Peer} {side : RecvSide}
    (filling : peer.recvSide.Filling source files)
    (sole : peer.recvSide.Sole before applied earlier)
    (phase : peer.receiver = .receiving current)
    (filled : peer.files.Fills source side.files)
    (waiting :
      side.pendingResumeRecv = peer.coordinator.pendingResumeRecv)
    (queue : side.recvQueue = peer.recvQueue)
    (isAfter : side.receiver = .receiving other)
    (sameTarget : other.targetWritePath = current.targetWritePath) :
    side.Filling source files := by
  obtain ⟨noneWaiting, noneQueued, _⟩ :=
    sole.active (congrArg RecvPhase.job? phase)
  apply
    RecvSide.Filling.of_active (filling.files.trans filled)
      (waiting.trans noneWaiting) (queue.trans noneQueued)
  · rw [isAfter]
    nofun
  · intro running isRunning
    rw [isAfter] at isRunning
    rw [← RecvPhase.receiving.inj isRunning, sameTarget]
    exact (filling.receiving current phase).of_fills filled

theorem taskEffect_filling
    {label : RecvLabel} {peer after : Peer}
    (sole : peer.recvSide.Sole before applied earlier)
    (resumable : Resumable source applied.destPath files)
    (matching :
      ∀ current, peer.receiver = .receiving current →
        current.Matches source)
    (filling : peer.recvSide.Filling source files)
    (effect : TaskEffect label peer after) :
    after.recvSide.Filling source files := by
  have fills : files.Fills source peer.files := filling.files
  have holds : peer.receiver.Holds applied.Accepts := sole.jobs.active
  have unchanged := FileStore.Fills.refl source peer.files
  cases effect with
  | started job rest idle queued =>
      obtain ⟨noneWaiting, noneElse, _⟩ := sole.next queued
      have isNext : job ∈ peer.recvQueue := by
        rw [queued]
        exact List.mem_cons_self
      refine
        RecvSide.Filling.of_active fills noneWaiting noneElse ?_ nofun
      intro other isOther
      rw [← RecvPhase.opening.inj isOther]
      exact filling.queued job isNext
  | refused job made opening ensured =>
      refine filling.ended sole (congrArg RecvPhase.job? opening) ?_ rfl rfl rfl
      rcases ensured with rfl | ensured
      · exact unchanged
      · exact FileStore.fills_ensureDirectories ensured
  | seekFailed job made opened opening ensured targetOpened =>
      exact
        filling.ended sole (congrArg RecvPhase.job? opening)
          ((FileStore.fills_ensureDirectories ensured).trans
            (openTarget_fills targetOpened))
          rfl rfl rfl
  | opened job made opened opening ensured targetOpened =>
      obtain ⟨noneWaiting, noneQueued, _⟩ :=
        sole.active (congrArg RecvPhase.job? opening)
      have filled : peer.files.Fills source made :=
        FileStore.fills_ensureDirectories ensured
      refine
        RecvSide.Filling.of_active
          (fills.trans (filled.trans (openTarget_fills targetOpened)))
          noneWaiting noneQueued nofun ?_
      intro current isCurrent
      rw [← RecvPhase.receiving.inj isCurrent]
      exact
        openTarget_fronts ((filling.opening job opening).of_fills filled)
          targetOpened
  | received current chunk loopEnd _ phase =>
      exact filling.running sole phase unchanged rfl rfl rfl rfl
  | loopFailed current phase =>
      exact filling.running sole phase unchanged rfl rfl rfl rfl
  | loopEnded current phase =>
      exact filling.running sole phase unchanged rfl rfl rfl rfl
  | storedChunk current chunk rest phase _ queued =>
      exact
        filling.running sole phase
          (storeBytes_fills (sole.receiving current phase)
            (matching current phase) (filling.receiving current phase)
            queued (List.prefix_refl chunk))
          rfl rfl rfl rfl
  | writerFailed current chunk rest length phase queued =>
      exact
        filling.running sole phase
          (storeBytes_fills (sole.receiving current phase)
            (matching current phase) (filling.receiving current phase)
            queued (List.take_prefix length chunk))
          rfl rfl rfl rfl
  | reported current => exact filling
  | closed current flushFails rehashFails _ phase =>
      obtain ⟨noneWaiting, noneQueued, _⟩ :=
        sole.active (congrArg RecvPhase.job? phase)
      exact
        RecvSide.Filling.of_active fills noneWaiting noneQueued nofun nofun
  | gaveUp current phase =>
      exact
        filling.ended sole (congrArg RecvPhase.job? phase) unchanged rfl rfl
          rfl
  | rejected current rest phase =>
      exact
        filling.ended sole (congrArg RecvPhase.job? phase) unchanged rfl rfl
          rfl
  | completed current expectedHash rest phase =>
      exact
        filling.ended sole (congrArg RecvPhase.job? phase) unchanged rfl rfl
          rfl
  | committed current expectedHash rest renamed phase _ _ staged moved =>
      rw [phase] at holds
      have isPart :
          current.targetWritePath = getPartPath applied.destPath := by
        rw [holds.2, targetWritePath_part staged, holds.1.destPath]
      have isFront : peer.files.Fronts source current.targetWritePath := by
        rw [isPart]
        exact resumable.staged.of_fills fills
      exact
        filling.ended sole (congrArg RecvPhase.job? phase)
          (FileStore.fills_rename isFront moved) rfl rfl rfl
  | abandoned current phase =>
      exact
        filling.ended sole (congrArg RecvPhase.job? phase) unchanged rfl rfl
          rfl

end Quiczilla
