import Quiczilla.OwnReceive

/-!
# Committing a large file

A large file is received next to its destination and renamed when it is
complete.  Two things of its own break that: falling back to byte zero from a
finished file, which is then truncated in place, and a staging file that could
not be cut back.  Other receives break it when they use its paths, or fall
back while the one variable for the staging path is that of this receive.
-/

namespace Quiczilla

open Foundation

/-- Falling back to byte zero is for a receive that is staged. -/
def Peer.RestartsStaged (peer : Peer) (label : PeerLabel) : Prop :=
  label.message = some .restartFromZero →
    ∀ job ∈ peer.coordinator.pendingResumeRecv, job.usePart = true

instance (peer : Peer) (label : PeerLabel) :
    Decidable (peer.RestartsStaged label) :=
  inferInstanceAs (Decidable (_ → _))

/-- Until the receive is completed its destination is as it was; afterwards
there is no staging file. -/
structure RecvSide.Staged
    (before : Files) (applied : AppliedAccept)
    (earlier : List Receipt) (side : RecvSide) : Prop where
  part : side.currentPartPath ≠ some applied.destPath
  direct :
    ∀ job ∈ side.unfinished, job.usePart = false →
      job.resumeOffset = applied.size ∧
        side.files applied.partPath = none
  dest :
    side.receipts = earlier →
      side.files applied.destPath = before applied.destPath
  gone :
    side.receipts ≠ earlier → side.files applied.partPath = none

variable {before : Files} {applied : AppliedAccept}
  {earlier : List Receipt}

theorem AppliedAccept.partPath_ne_destPath (applied : AppliedAccept) :
    applied.partPath ≠ applied.destPath := by
  rw [AppliedAccept.partPath, AppliedAccept.destPath]
  exact Quiczilla.partPath_ne_destPath _ _

theorem loopEffect_staged
    {peer : Peer} {label : PeerLabel} {next : RecvSide}
    (sole : peer.recvSide.Sole before applied earlier)
    (staged : peer.recvSide.Staged before applied earlier)
    (noAccept : peer.applied label = none)
    (restarts : peer.RestartsStaged label)
    (effect : LoopEffect peer label next) :
    next.Staged before applied earlier := by
  -- After falling back only a staged receive is unfinished.
  have restarted :
      ∀ {job : RecvJob} {side : RecvSide},
        label.message = some .restartFromZero →
          peer.coordinator.pendingResumeRecv = some job →
            side.pendingResumeRecv = none →
              side.recvQueue =
                  peer.recvQueue ++ [{ job with resumeOffset := 0 }] →
                side.receiver = peer.receiver →
                  ∀ other ∈ side.unfinished, other.usePart = false →
                    other.resumeOffset = applied.size ∧
                      side.files applied.partPath = none := by
    intro job side message resuming cleared queue receiver other member
      direct
    obtain ⟨noneQueued, noneActive, _⟩ := sole.waiting resuming
    have noneQueued : peer.recvQueue = [] := noneQueued
    have noneActive : peer.receiver.job? = none := noneActive
    rw [RecvSide.unfinished, cleared, queue, receiver, noneQueued,
      noneActive] at member
    have isJob : other = { job with resumeOffset := 0 } := by
      simpa using member
    have isStaged : other.usePart = true := by
      rw [isJob]
      exact restarts message job resuming
    rw [isStaged] at direct
    cases direct
  cases effect with
  | quiet _ => exact staged
  | accepted other faults next isApplied _ _ =>
      rw [noAccept] at isApplied
      cases isApplied
  | resumed job _ _ resuming =>
      refine ⟨staged.part, ?_, staged.dest, staged.gone⟩
      intro other member
      apply staged.direct
      have waiting :
          peer.recvSide.unfinished =
            [job] ++ peer.recvQueue ++ peer.receiver.job?.toList := by
        change
          peer.coordinator.pendingResumeRecv.toList ++ _ ++ _ = _
        rw [resuming]
        rfl
      rw [waiting]
      simpa [RecvSide.unfinished, Peer.recvSide, or_comm, or_assoc,
        or_left_comm] using member
  | restarted job _ message resuming =>
      exact
        ⟨staged.part, restarted message resuming rfl rfl rfl,
          staged.dest, staged.gone⟩
  | recreated job partPath created _ message resuming isPart succeeded =>
      obtain ⟨_, _, same⟩ := sole.waiting resuming
      have notDest : applied.destPath ≠ partPath := by
        rintro rfl
        exact staged.part isPart
      refine
        ⟨staged.part, restarted message resuming rfl rfl rfl, ?_, ?_⟩
      · intro _
        rw [← staged.dest same, (FileStore.create_eq_some succeeded).1]
        exact FileStore.put_other _ _ notDest
      · exact fun different => absurd same different

/-! ## The receive task -/

/-- Opening the target leaves the destination as it was. -/
theorem opened_dest
    {job : RecvJob} {files made opened : Files}
    (large : 0 < applied.size)
    (accepts : applied.Accepts job)
    (grounded : job.Grounded before files)
    (direct :
      job.usePart = false → job.resumeOffset = applied.size)
    (ensured : files.ensureDirectories job.ancestors = some made)
    (targetOpened : job.openTarget made = some opened) :
    opened applied.destPath = files applied.destPath := by
  have notAncestor : applied.destPath ∉ job.ancestors := by
    rw [← accepts.destPath]
    exact (paths_not_ancestors accepts.destPath).1
  have unmade : made applied.destPath = files applied.destPath := by
    rcases FileStore.ensureDirectories_spec ensured applied.destPath with
      same | ⟨member, _⟩
    · exact same
    · exact absurd member notAncestor
  cases usesPart : job.usePart with
  | true =>
      have isTarget : job.targetWritePath = applied.partPath := by
        rw [targetWritePath_part usesPart, accepts.destPath,
          AppliedAccept.partPath]
      rw [← unmade]
      apply openTarget_other targetOpened
      rw [isTarget]
      exact (AppliedAccept.partPath_ne_destPath applied).symm
  | false =>
      have isTarget : job.targetWritePath = applied.destPath := by
        rw [targetWritePath_dest usesPart, accepts.destPath]
      have positive : 0 < job.resumeOffset := by
        rw [direct usesPart]
        exact large
      have present :
          ∃ node, files applied.destPath = some node := by
        rw [← isTarget]
        rcases grounded positive with
          ⟨content, present, _⟩ | ⟨length, isDirectory⟩
        · exact ⟨_, present⟩
        · exact ⟨_, isDirectory⟩
      obtain ⟨node, present⟩ := present
      rw [RecvJob.openTarget, if_pos positive, isTarget] at targetOpened
      rcases FileStore.openWrite_eq_some targetOpened with
        ⟨rfl, _⟩ | ⟨absent, _⟩
      · exact unmade
      · rw [unmade, present] at absent
        cases absent

/-- Nothing is received when everything is kept. -/
theorem kept_all_drained
    {current : Receiving} (accounted : current.Accounted)
    (all : current.job.resumeOffset = current.job.fileSize) :
    current.chunks = [] := by
  have total := accounted.total
  have bounded := accounted.bounded
  have noBytes : current.chunks.flatten.length = 0 := by omega
  cases chunks : current.chunks with
  | nil => rfl
  | cons chunk rest =>
      have nonempty : chunk ≠ [] := by
        apply accounted.nonempty
        rw [chunks]
        exact List.mem_cons_self
      rw [chunks, List.flatten_cons, List.length_append] at noBytes
      have isEmpty : chunk.length = 0 := by omega
      exact absurd (List.eq_nil_of_length_eq_zero isEmpty) nonempty

theorem mem_unfinished
    {side : RecvSide} {job : RecvJob}
    (isActive : side.receiver.job? = some job) :
    job ∈ side.unfinished := by
  rw [RecvSide.unfinished, isActive]
  exact List.mem_append_right _ List.mem_cons_self

theorem opened_part
    {job : RecvJob} {files made opened : Files}
    (accepts : applied.Accepts job) (direct : job.usePart = false)
    (ensured : files.ensureDirectories job.ancestors = some made)
    (targetOpened : job.openTarget made = some opened) :
    opened applied.partPath = files applied.partPath := by
  have isTarget : job.targetWritePath = applied.destPath := by
    rw [targetWritePath_dest direct, accepts.destPath]
  have notAncestor : applied.partPath ∉ job.ancestors := by
    rw [AppliedAccept.partPath, ← accepts.destPath]
    exact (paths_not_ancestors accepts.destPath).2
  have untouched : opened applied.partPath = made applied.partPath := by
    apply openTarget_other targetOpened
    rw [isTarget]
    exact applied.partPath_ne_destPath
  rw [untouched]
  rcases FileStore.ensureDirectories_spec ensured applied.partPath with
    same | ⟨member, _⟩
  · exact same
  · exact absurd member notAncestor

/-- The running receive writes to the staging file, if it writes at all. -/
theorem storeBytes_dest
    {peer : Peer} {current : Receiving} {chunk : List UInt8}
    {rest : List (List UInt8)} (bytes : List UInt8)
    (sole : peer.recvSide.Sole before applied earlier)
    (staged : peer.recvSide.Staged before applied earlier)
    (phase : peer.receiver = .receiving current)
    (queued : current.chunks = chunk :: rest) :
    current.job.usePart = true ∧
      (peer.storeBytes current bytes).files applied.destPath =
        peer.files applied.destPath := by
  have holds : peer.receiver.Holds applied.Accepts := sole.jobs.active
  rw [phase] at holds
  obtain ⟨accepts, isTarget⟩ := holds
  have usesPart : current.job.usePart = true := by
    by_contra notPart
    have direct : current.job.usePart = false := by
      simpa using notPart
    have all :=
      (staged.direct current.job
        (mem_unfinished (congrArg RecvPhase.job? phase)) direct).1
    have drained :=
      kept_all_drained (sole.receiving current phase).accounted
        (all.trans accepts.fileSize.symm)
    rw [queued] at drained
    cases drained
  refine ⟨usesPart, ?_⟩
  have isPart : current.targetWritePath = applied.partPath := by
    rw [isTarget, targetWritePath_part usesPart, accepts.destPath,
      AppliedAccept.partPath]
  apply FileStore.writeAt_other
  rw [isPart]
  exact applied.partPath_ne_destPath.symm

section Active

variable {peer next : Peer}

/-- Nothing but the active receive is unfinished. -/
theorem unfinished_active
    {job : RecvJob} (sole : peer.recvSide.Sole before applied earlier)
    (isActive : peer.receiver.job? = some job)
    (keeps : peer.KeepsQueue next.recvSide) :
    next.recvSide.unfinished = next.receiver.job?.toList := by
  obtain ⟨noneWaiting, noneQueued, _⟩ := sole.active isActive
  have waiting := keeps.waiting.trans noneWaiting
  have queue := keeps.queue.trans noneQueued
  rw [RecvSide.unfinished, waiting, queue]
  rfl

/-- A step of the active receive that does not complete it. -/
theorem RecvSide.Staged.stays
    {job : RecvJob} (staged : peer.recvSide.Staged before applied earlier)
    (sole : peer.recvSide.Sole before applied earlier)
    (isActive : peer.receiver.job? = some job)
    (coordinator : next.coordinator = peer.coordinator)
    (queue : next.recvQueue = peer.recvQueue)
    (receipts : next.receipts = peer.receipts)
    (after :
      next.receiver.job? = some job ∨ next.receiver.job? = none)
    (dest :
      next.files applied.destPath = peer.files applied.destPath)
    (samePart :
      next.receiver.job? = some job → job.usePart = false →
        next.files applied.partPath = peer.files applied.partPath) :
    next.recvSide.Staged before applied earlier := by
  obtain ⟨_, _, same⟩ := sole.active isActive
  have same : peer.receipts = earlier := same
  have isAlone :=
    @unfinished_active _ _ _ peer next job sole isActive
      ⟨congrArg Coordinator.pendingResumeRecv coordinator, queue⟩
  refine ⟨?_, ?_, ?_, ?_⟩
  · change next.coordinator.currentPartPath ≠ _
    rw [coordinator]
    exact staged.part
  · intro another member direct
    rw [isAlone] at member
    rcases after with isJob | ended
    · rw [isJob] at member
      have isJob' : another = job := List.mem_singleton.mp member
      rw [isJob'] at direct ⊢
      obtain ⟨all, absent⟩ :=
        staged.direct job (mem_unfinished isActive) direct
      exact ⟨all, (samePart isJob direct).trans absent⟩
    · rw [ended] at member
      cases member
  · intro _
    exact dest.trans (staged.dest same)
  · intro different
    exact absurd (receipts.trans same) different

/-- The step that completes it. -/
theorem RecvSide.Staged.completes
    {current : Verifying} {receipt : Receipt}
    (staged : peer.recvSide.Staged before applied earlier)
    (sole : peer.recvSide.Sole before applied earlier)
    (phase : peer.receiver = .verifying current)
    (coordinator : next.coordinator = peer.coordinator)
    (queue : next.recvQueue = peer.recvQueue)
    (idle : next.receiver = .idle)
    (receipts : next.receipts = peer.receipts ++ [receipt])
    (absent : next.files applied.partPath = none) :
    next.recvSide.Staged before applied earlier := by
  have isActive := congrArg RecvPhase.job? phase
  obtain ⟨_, _, same⟩ := sole.active isActive
  have same : peer.receipts = earlier := same
  have isAlone :=
    @unfinished_active _ _ _ peer next _ sole isActive
      ⟨congrArg Coordinator.pendingResumeRecv coordinator, queue⟩
  refine ⟨?_, ?_, ?_, fun _ => absent⟩
  · change next.coordinator.currentPartPath ≠ _
    rw [coordinator]
    exact staged.part
  · intro another member
    rw [isAlone, idle] at member
    cases member
  · intro unchanged
    have unchanged : next.receipts = earlier := unchanged
    rw [receipts, same] at unchanged
    cases List.append_right_eq_self.mp unchanged

/-- The next receive of the queue is the only one. -/
theorem RecvSide.Staged.starts
    {job : RecvJob} {rest : List RecvJob}
    (staged : peer.recvSide.Staged before applied earlier)
    (sole : peer.recvSide.Sole before applied earlier)
    (queued : peer.recvQueue = job :: rest) :
    RecvSide.Staged before applied earlier
      (Peer.recvSide
        { peer with recvQueue := rest, receiver := .opening job }) := by
  obtain ⟨noneWaiting, noneElse, same⟩ := sole.next queued
  refine ⟨staged.part, ?_, staged.dest, staged.gone⟩
  intro other member
  apply staged.direct
  have isJob : other = job := by
    have noneWaiting : peer.coordinator.pendingResumeRecv = none :=
      noneWaiting
    simpa [RecvSide.unfinished, Peer.recvSide, noneWaiting, noneElse,
      RecvPhase.job?] using member
  have isNext : job ∈ peer.recvQueue := by
    rw [queued]
    exact List.mem_cons_self
  rw [isJob]
  exact List.mem_append_left _ (List.mem_append_right _ isNext)

/-- Creating the parent directories leaves the destination as it was. -/
theorem refused_dest
    {job : RecvJob} {files : Files} (accepts : applied.Accepts job)
    (made :
      files = peer.files ∨
        peer.files.ensureDirectories job.ancestors = some files) :
    files applied.destPath = peer.files applied.destPath := by
  rcases made with rfl | made
  · rfl
  · rcases FileStore.ensureDirectories_spec made applied.destPath with
      same | ⟨member, _⟩
    · exact same
    · rw [← accepts.destPath] at member
      exact absurd member (paths_not_ancestors accepts.destPath).1

/-- The rename takes the staging file away. -/
theorem committed_part
    {current : Verifying} {renamed : Files}
    (accepts : applied.Accepts current.job)
    (isTarget : current.targetWritePath = current.job.targetWritePath)
    (usesPart : current.job.usePart = true)
    (moved :
      peer.files.rename current.targetWritePath current.job.destPath =
        some renamed) :
    renamed applied.partPath = none := by
  have isPart : current.targetWritePath = applied.partPath := by
    rw [isTarget, targetWritePath_part usesPart, accepts.destPath,
      AppliedAccept.partPath]
  obtain ⟨content, _, rfl, _⟩ := FileStore.rename_eq_some moved
  rw [accepts.destPath, FileStore.put_other _ _
    applied.partPath_ne_destPath, isPart, FileStore.remove_same]

end Active

theorem taskEffect_staged
    {label : RecvLabel} {peer next : Peer}
    (large : 0 < applied.size)
    (sole : peer.recvSide.Sole before applied earlier)
    (staged : peer.recvSide.Staged before applied earlier)
    (effect : TaskEffect label peer next) :
    next.recvSide.Staged before applied earlier := by
  have holds : peer.receiver.Holds applied.Accepts := sole.jobs.active
  have directOf
      {job : RecvJob} (isActive : peer.receiver.job? = some job)
      (direct : job.usePart = false) :
      job.resumeOffset = applied.size :=
    (staged.direct _ (mem_unfinished isActive) direct).1
  -- A step of the running receive that writes nothing.
  have quiet
      {job : RecvJob} {other : Peer}
      (isActive : peer.receiver.job? = some job)
      (coordinator : other.coordinator = peer.coordinator)
      (queue : other.recvQueue = peer.recvQueue)
      (receipts : other.receipts = peer.receipts)
      (files : other.files = peer.files)
      (after :
        other.receiver.job? = some job ∨ other.receiver.job? = none) :
      other.recvSide.Staged before applied earlier := by
    refine
      staged.stays sole isActive coordinator queue receipts after ?_ ?_
    · rw [files]
    · intro _ _
      rw [files]
  cases effect with
  | started job rest idle queued => exact staged.starts sole queued
  | refused job files opening made =>
      have isActive := congrArg RecvPhase.job? opening
      rw [opening] at holds
      exact
        staged.stays sole isActive rfl rfl rfl (Or.inr rfl)
          (refused_dest holds made) (fun reached _ => by cases reached)
  | seekFailed job made opened opening ensured targetOpened =>
      have isActive := congrArg RecvPhase.job? opening
      rw [opening] at holds
      exact
        staged.stays sole isActive rfl rfl rfl (Or.inr rfl)
          (opened_dest large holds (sole.opening job opening)
            (directOf isActive) ensured targetOpened)
          (fun reached _ => by cases reached)
  | opened job made opened opening ensured targetOpened =>
      have isActive := congrArg RecvPhase.job? opening
      rw [opening] at holds
      exact
        staged.stays sole isActive rfl rfl rfl (Or.inl rfl)
          (opened_dest large holds (sole.opening job opening)
            (directOf isActive) ensured targetOpened)
          (fun _ direct => opened_part holds direct ensured targetOpened)
  | received current chunk loopEnd _ phase _ _ _ _ _ =>
      exact quiet (congrArg RecvPhase.job? phase) rfl rfl rfl rfl (Or.inl rfl)
  | loopFailed current phase =>
      exact quiet (congrArg RecvPhase.job? phase) rfl rfl rfl rfl (Or.inl rfl)
  | loopEnded current phase _ _ =>
      exact quiet (congrArg RecvPhase.job? phase) rfl rfl rfl rfl (Or.inl rfl)
  | storedChunk current chunk rest phase _ queued =>
      obtain ⟨usesPart, dest⟩ :=
        storeBytes_dest chunk sole staged phase queued
      refine
        staged.stays sole (congrArg RecvPhase.job? phase) rfl rfl rfl
          (Or.inl rfl) dest ?_
      intro _ direct
      rw [usesPart] at direct
      cases direct
  | writerFailed current chunk rest length phase queued =>
      obtain ⟨usesPart, dest⟩ :=
        storeBytes_dest (chunk.take length) sole staged phase queued
      refine
        staged.stays sole (congrArg RecvPhase.job? phase) rfl rfl rfl
          (Or.inl rfl) dest ?_
      intro _ direct
      rw [usesPart] at direct
      cases direct
  | reported current => exact staged
  | closed current flushFails rehashFails _ phase _ _ _ =>
      exact quiet (congrArg RecvPhase.job? phase) rfl rfl rfl rfl (Or.inl rfl)
  | gaveUp current phase =>
      exact quiet (congrArg RecvPhase.job? phase) rfl rfl rfl rfl (Or.inr rfl)
  | rejected current rest phase =>
      exact quiet (congrArg RecvPhase.job? phase) rfl rfl rfl rfl (Or.inr rfl)
  | abandoned current phase =>
      exact quiet (congrArg RecvPhase.job? phase) rfl rfl rfl rfl (Or.inr rfl)
  | completed current expectedHash rest phase _ _ direct =>
      exact
        staged.completes sole phase rfl rfl rfl rfl
          (staged.direct current.job
            (mem_unfinished (congrArg RecvPhase.job? phase)) direct).2
  | committed current expectedHash rest renamed phase _ _ usesPart
      moved =>
      rw [phase] at holds
      exact
        staged.completes sole phase rfl rfl rfl rfl
          (committed_part holds.1 holds.2 usesPart moved)

/-! ## From the accept on -/

theorem acceptEffect_staged
    {faults : Faults} {side next : RecvSide}
    (atRest : side.unfinished = [])
    (large : resumeThresholdBytes ≤ applied.size)
    (effect : AcceptEffect applied faults side next) :
    next.Staged side.files applied side.receipts := by
  obtain ⟨noneWaiting, noneQueued, noneActive⟩ :=
    unfinished_eq_nil.mp atRest
  -- A job that is to be staged is the only one.
  have staged :
      ∀ {job : RecvJob} {after : RecvSide},
        after.pendingResumeRecv.toList ++ after.recvQueue = [job] →
          after.receiver = side.receiver → job.usePart = true →
            ∀ other ∈ after.unfinished, other.usePart = false →
              other.resumeOffset = applied.size ∧
                after.files applied.partPath = none := by
    intro job after one receiver usesPart other member direct
    rw [RecvSide.unfinished, one, receiver, noneActive] at member
    rw [List.mem_singleton.mp member, usesPart] at direct
    cases direct
  have waits :
      ∀ job, (some job).toList ++ side.recvQueue = [job] := by
    intro job
    rw [noneQueued]
    rfl
  have absurdly :
      ∀ {statement : Prop}, side.receipts ≠ side.receipts → statement :=
    fun different => absurd rfl different
  have part : some applied.partPath ≠ some applied.destPath :=
    fun same => applied.partPath_ne_destPath (Option.some.inj same)
  cases effect with
  | small offer small => exact absurd large (Nat.not_le_of_lt small)
  | fresh offer _ =>
      have one :
          side.pendingResumeRecv.toList ++
              (side.recvQueue ++ [applied.job 0 true offer]) =
            [applied.job 0 true offer] := by
        rw [noneWaiting, noneQueued]
        rfl
      exact ⟨part, staged one rfl rfl, fun _ => rfl, absurdly⟩
  | keepPart offer existing _ _ _ _ _ =>
      exact
        ⟨part, staged (waits _) rfl rfl, fun _ => rfl, absurdly⟩
  | cutPart offer existing cut _ _ _ _ succeeded =>
      obtain ⟨content, _, isCut⟩ := FileStore.setLength_eq_some succeeded
      refine ⟨part, staged (waits _) rfl rfl, ?_, absurdly⟩
      intro _
      change cut applied.destPath = _
      rw [isCut]
      exact FileStore.put_other _ _ applied.partPath_ne_destPath.symm
  | keepDest offer _ _ absent _ _ =>
      refine ⟨part, ?_, fun _ => rfl, absurdly⟩
      intro other member _
      have isJob : other = applied.job applied.size false offer := by
        rw [RecvSide.unfinished, noneQueued, noneActive] at member
        exact List.mem_singleton.mp member
      rw [isJob]
      exact ⟨rfl, absent⟩

/-! ## Among other receives -/

/-- The task is about to create the parent directories of a destination. -/
def PeerLabel.opens : PeerLabel → Bool
  | .recv (.openTarget _) => true
  | _ => false

/-- The step uses none of the paths of the accept for another receive, and it
falls back to byte zero only when that hits neither the finished destination
nor a staging file that another receive left as the current one. -/
structure Peer.Undisturbed
    (applied : AppliedAccept) (peer : Peer) (label : PeerLabel) : Prop where
  accepts :
    ∀ other ∈ peer.applied label,
      ∀ path ∈ other.paths, path ∉ applied.paths
  restarts :
    label.message = some .restartFromZero →
      ∀ job ∈ peer.coordinator.pendingResumeRecv,
        if job.destPath = applied.destPath then job.usePart = true
        else peer.coordinator.currentPartPath ≠ some applied.partPath
  makes :
    label.opens = true →
      ∀ job ∈ peer.receiver.job?, job.destPath ≠ applied.destPath →
        ∀ path ∈ job.ancestors, path ∈ applied.paths →
          peer.files path ≠ none

instance (applied : AppliedAccept) (peer : Peer) (label : PeerLabel) :
    Decidable (peer.Undisturbed applied label) :=
  have :
      Decidable
        (label.opens = true →
          ∀ job ∈ peer.receiver.job?, job.destPath ≠ applied.destPath →
            ∀ path ∈ job.ancestors, path ∈ applied.paths →
              peer.files path ≠ none) :=
    instDecidableForall
  decidable_of_iff (_ ∧ _ ∧ _)
    ⟨fun ⟨accepts, restarts, makes⟩ => ⟨accepts, restarts, makes⟩,
      fun ⟨accepts, restarts, makes⟩ => ⟨accepts, restarts, makes⟩⟩

/-- The receive writes at none of the paths of the accept, unless it is for
its destination. -/
def AppliedAccept.Spares (applied : AppliedAccept) (job : RecvJob) : Prop :=
  job.destPath ≠ applied.destPath → ∀ path ∈ applied.paths, path ∉ job.paths

theorem spares_stable (applied : AppliedAccept) :
    StableUnderRestart applied.Spares :=
  fun _ spares => spares

theorem leads_spares
    {other : AppliedAccept}
    (apart : ∀ path ∈ other.paths, path ∉ applied.paths) :
    other.LeadsWithin applied.Spares := by
  intro offset usePart offer _ staged _ path member inJob
  exact apart path (job_paths staged offset offer path inJob) member

/-- The receive of the accept, seen for itself, is the only one and is staged;
all others are elsewhere. -/
structure Peer.Receives
    (before : Files) (applied : AppliedAccept) (earlier : List Receipt)
    (peer : Peer) : Prop where
  sole :
    (peer.only applied.destPath).recvSide.Sole before applied earlier
  staged :
    (peer.only applied.destPath).recvSide.Staged before applied earlier
  others : peer.recvSide.Jobs applied.Spares

theorem RecvSide.Staged.beside
    {side next : RecvSide} (staged : side.Staged before applied earlier)
    (large : resumeThresholdBytes ≤ applied.size)
    (beside : side.Beside applied.paths next) :
    next.Staged before applied earlier := by
  have dest := beside.files _ (destPath_mem_paths applied)
  have part : next.files applied.partPath = side.files applied.partPath := by
    apply beside.files
    rw [paths_of_large large]
    exact List.mem_cons_self
  refine ⟨?_, ?_, ?_, ?_⟩
  · obtain same | apart := beside.part
    · rw [same]
      exact staged.part
    · exact apart _ (destPath_mem_paths applied)
  · intro job member direct
    rw [part]
    exact staged.direct job ((unfinished_beside beside).subset member) direct
  · rw [beside.receipts, dest]
    exact staged.dest
  · rw [beside.receipts, part]
    exact staged.gone

section Steps

variable {peer next : Peer} {label : PeerLabel}

/-- A step of the coordination loop. -/
theorem loopEffect_receives
    (large : resumeThresholdBytes ≤ applied.size)
    (receives : peer.Receives before applied earlier)
    (undisturbed : peer.Undisturbed applied label)
    (effect : LoopEffect peer label next.recvSide) :
    next.Receives before applied earlier := by
  have others : next.recvSide.Jobs applied.Spares :=
    loopEffect_jobs receives.others (spares_stable applied)
      (fun other isApplied =>
        leads_spares (undisturbed.accepts other isApplied)) effect
  have spared (message : label.message = some .restartFromZero)
      (job : RecvJob)
      (waiting : peer.coordinator.pendingResumeRecv = some job)
      (isOther : job.destPath ≠ applied.destPath) :
      ∀ path ∈ applied.paths,
        peer.coordinator.currentPartPath ≠ some path := by
    have notPart := undisturbed.restarts message job waiting
    rw [if_neg isOther] at notPart
    rw [paths_of_large large]
    intro path member
    obtain rfl | rfl := List.mem_pair.mp member
    · exact notPart
    · exact receives.staged.part
  obtain ⟨noAccept, own⟩ | beside :=
    loopEffect_only undisturbed.accepts spared effect
  · have restarts :
        (peer.only applied.destPath).RestartsStaged label := by
      intro message job waiting
      obtain ⟨isWaiting, own⟩ := Option.filter_eq_some_iff.mp waiting
      have staged := undisturbed.restarts message job isWaiting
      rw [if_pos (isFor_iff.mp own)] at staged
      exact staged
    exact
      ⟨loopEffect_sole receives.sole noAccept own,
        loopEffect_staged receives.sole receives.staged noAccept restarts
          own,
        others⟩
  · exact
      ⟨receives.sole.beside large beside,
        receives.staged.beside large beside, others⟩

/-- A step of the receive task, for this receive or for another one. -/
theorem recvStep_receives
    {recvLabel : RecvLabel}
    (large : resumeThresholdBytes ≤ applied.size)
    (receives : peer.Receives before applied earlier)
    (undisturbed : peer.Undisturbed applied (.recv recvLabel))
    (stepped : peer.recvStep recvLabel = some next) :
    next.Receives before applied earlier := by
  have effect := recvStep_effect stepped
  have others := taskEffect_jobs receives.others effect
  by_cases own :
      ∀ job, peer.turn = some job → job.destPath = applied.destPath
  · have seen := taskEffect_only own effect
    have positive : 0 < applied.size :=
      Nat.lt_of_lt_of_le resumeThresholdBytes_pos large
    exact
      ⟨taskEffect_sole receives.sole seen,
        taskEffect_staged positive receives.sole receives.staged seen,
        others⟩
  · obtain ⟨job, isTurn, isOther⟩ := not_forall₂.mp own
    have isJob {current : RecvJob}
        (isActive : peer.receiver.job? = some current) :
        current = job :=
      Option.some.inj ((turn_of_phase isActive).symm.trans isTurn)
    have active : peer.receiver.Holds applied.Spares :=
      receives.others.active
    have untouched :
        ∀ path ∈ applied.paths, next.files path = peer.files path := by
      intro path member
      refine
        taskEffect_elsewhere (active.mono fun _ _ => trivial) ?_ ?_ effect
      · intro current isActive
        have spares := active.of_job? isActive
        rw [isJob isActive] at spares ⊢
        exact spares isOther path member
      · intro current made opening ensured
        obtain ⟨outcome, rfl⟩ := recvStep_opening opening stepped
        have isActive := congrArg RecvPhase.job? opening
        have isCurrent := isJob isActive
        rcases FileStore.ensureDirectories_spec ensured path with
          same | ⟨isAncestor, absent, _⟩
        · exact same
        · rw [← isCurrent] at isOther
          exact
            absurd absent
              (undisturbed.makes rfl current isActive isOther path
                isAncestor member)
    have beside := taskEffect_beside isTurn isOther untouched effect
    exact
      ⟨receives.sole.beside large beside,
        receives.staged.beside large beside, others⟩

theorem peerStep_receives
    (large : resumeThresholdBytes ≤ applied.size)
    (receives : peer.Receives before applied earlier)
    (undisturbed : peer.Undisturbed applied label)
    (stepped : peerStep peer label = some next) :
    next.Receives before applied earlier := by
  cases label with
  | recv recvLabel => exact recvStep_receives large receives undisturbed stepped
  | _ =>
      rcases peerStep_effect stepped with effect | ⟨recvLabel, isRecv, _⟩
      · exact loopEffect_receives large receives undisturbed effect
      · cases isRecv

end Steps

/-! ## What is compared -/

/-- The hash is that of the content, or the file could not be read again. -/
def Verifying.Hashed (verifying : Verifying) : Prop :=
  verifying.job.checksum = true →
    verifying.actualHash = sha256Hex verifying.content ∨
      verifying.actualHash = "NONE"

theorem verifyingOf_hashed
    (peer : Peer) (receiving : Receiving) (rehashFails : Bool) :
    (peer.verifyingOf receiving rehashFails).Hashed := by
  intro checksum
  change receiving.job.checksum = true at checksum
  simp only [Peer.verifyingOf, RecvJob.rehashes, RecvJob.hashesInline,
    checksum, Bool.true_and, computeFileSha256]
  by_cases resumed : 0 < receiving.job.resumeOffset
  · cases rehashFails with
    | true => simp [resumed]
    | false =>
        cases peer.files.content? receiving.targetWritePath <;>
          simp [resumed]
  · have zero : receiving.job.resumeOffset = 0 := by omega
    simp [zero]

/-- What is verified and what has been accepted was hashed. -/
structure RecvSide.Hashed (side : RecvSide) : Prop where
  verifying :
    ∀ verifying, side.receiver = .verifying verifying → verifying.Hashed
  receipts : ∀ receipt ∈ side.receipts, receipt.verified.Hashed

theorem peerStep_hashed
    {peer next : Peer} {label : PeerLabel}
    (hashed : peer.recvSide.Hashed)
    (stepped : peerStep peer label = some next) :
    next.recvSide.Hashed := by
  have accepted {verifying : Verifying} {expectedHash : String}
      (phase : peer.receiver = .verifying verifying) :
      ∀ receipt ∈ peer.receipts ++ [⟨verifying, expectedHash⟩],
        receipt.verified.Hashed := by
    intro receipt member
    rcases List.mem_append.mp member with before | new
    · exact hashed.receipts receipt before
    · rw [List.mem_singleton.mp new]
      exact hashed.verifying verifying phase
  rcases peerStep_effect stepped with effect | ⟨recvLabel, rfl, effect⟩
  · obtain ⟨sameReceiver, sameReceipts⟩ := loopEffect_receiver effect
    refine ⟨?_, ?_⟩
    · rw [sameReceiver]
      exact hashed.verifying
    · rw [sameReceipts]
      exact hashed.receipts
  · cases effect with
    | closed receiving flushFails rehashFails _ _ _ _ _ =>
        refine ⟨?_, hashed.receipts⟩
        rintro current ⟨⟩
        exact verifyingOf_hashed peer receiving rehashFails
    | completed verifying expectedHash rest phase _ _ _ =>
        exact ⟨nofun, accepted phase⟩
    | committed verifying expectedHash rest renamed phase _ _ _ _ =>
        exact ⟨nofun, accepted phase⟩
    | reported receiving => exact hashed
    | _ => exact ⟨nofun, hashed.receipts⟩

/-! ## The run -/

/-- The completed receives of a destination. -/
def Peer.receiptsFor (destPath : UnixPath) (peer : Peer) : List Receipt :=
  peer.receipts.filter (·.verified.job.isFor destPath)

section Accept

variable {peer accepted : Peer} {label : PeerLabel}

/-- No unfinished receive uses a path of the accept. -/
def Peer.Apart (applied : AppliedAccept) (peer : Peer) : Prop :=
  ∀ job ∈ peer.recvSide.unfinished,
    ∀ path ∈ applied.paths, path ∉ job.paths

theorem nothing_unfinished (apart : peer.Apart applied) :
    (peer.recvSide.only applied.destPath).unfinished = [] := by
  rw [List.eq_nil_iff_forall_not_mem]
  intro job member
  obtain ⟨isUnfinished, isDest⟩ := mem_unfinished_only member
  apply
    apart job isUnfinished applied.destPath (destPath_mem_paths applied)
  rw [← isDest]
  exact List.mem_cons_of_mem _ List.mem_cons_self

/-- The accept starts a receive that is the only one of its destination. -/
theorem accepted_receives
    (jobs : peer.recvSide.Jobs fun _ => True)
    (isApplied : peer.applied label = some applied)
    (large : resumeThresholdBytes ≤ applied.size)
    (apart : peer.Apart applied)
    (cutsBack : applied.CutsBack peer.files label.faults)
    (stepped : peerStep peer label = some accepted) :
    accepted.Receives peer.files applied
      (peer.receiptsFor applied.destPath) := by
  have effect := peerStep_accepts isApplied stepped
  have seen := acceptEffect_only effect
  have atRest := nothing_unfinished apart
  have spared : peer.recvSide.Jobs applied.Spares :=
    jobs.of_unfinished fun job member _ => apart job member
  have leads : applied.LeadsWithin applied.Spares := by
    intro offset usePart offer _ _ isOther
    exact absurd (applied.job_destPath offset usePart offer) isOther
  exact
    ⟨acceptEffect_sole atRest cutsBack seen,
      acceptEffect_staged atRest large seen,
      acceptEffect_jobs spared leads effect⟩

end Accept

/-- From the accept of a large offer on, wherever the run stops and whatever
else is received on other paths: the destination is as it was or holds a
complete content that passed the check, and a completed receive has left no
staging file. -/
theorem staged_commit
    {files : Files} {peer accepted final : Peer} {label : PeerLabel}
    {earlier labels : List PeerLabel} {applied : AppliedAccept}
    (reached : replay peerStep (Peer.initial files) earlier = some peer)
    (isApplied : peer.applied label = some applied)
    (large : resumeThresholdBytes ≤ applied.size)
    (apart : peer.Apart applied)
    (cutsBack : applied.CutsBack peer.files label.faults)
    (stepped : peerStep peer label = some accepted)
    (run :
      Run peerStep (Peer.Undisturbed applied) accepted labels final) :
    (final.files applied.destPath = peer.files applied.destPath ∨
        ∃ receipt content,
          final.receiptsFor applied.destPath =
              peer.receiptsFor applied.destPath ++ [receipt] ∧
            final.files applied.destPath = some (.file content) ∧
              content.length = applied.size ∧
                hashOk receipt.expectedHash
                    receipt.verified.actualHash = true ∧
                  (applied.accept.checksum = true →
                    receipt.verified.actualHash = sha256Hex content ∨
                      receipt.verified.actualHash = "NONE")) ∧
      (final.receiptsFor applied.destPath ≠
          peer.receiptsFor applied.destPath →
        final.files applied.partPath = none) := by
  have before :
      (peer.recvSide.Jobs fun _ => True) ∧ peer.recvSide.Hashed :=
    (run_of_replay reached).preserves
      (fun peer => (peer.recvSide.Jobs fun _ => True) ∧ peer.recvSide.Hashed)
      (fun _ _ _ inv _ stepped =>
        ⟨peerStep_jobs inv.1 (fun _ _ => trivial)
            (fun _ _ _ _ _ _ _ => trivial) stepped,
          peerStep_hashed inv.2 stepped⟩)
      ⟨initial_jobs files, ⟨nofun, nofun⟩⟩
  have starts :=
    accepted_receives before.1 isApplied large apart cutsBack stepped
  have hashedStart := peerStep_hashed before.2 stepped
  obtain ⟨receives, hashed⟩ :=
    run.preserves
      (fun other =>
        other.Receives peer.files applied
            (peer.receiptsFor applied.destPath) ∧
          other.recvSide.Hashed)
      (fun _ _ _ inv undisturbed stepped =>
        ⟨peerStep_receives large inv.1 undisturbed stepped,
          peerStep_hashed inv.2 stepped⟩)
      ⟨starts, hashedStart⟩
  refine ⟨?_, receives.staged.gone⟩
  rcases receives.sole.finished with
    same | ⟨_, receipt, content, receipts, accepts, present, whole,
      passed⟩
  · exact Or.inl (receives.staged.dest same)
  · refine
      Or.inr ⟨receipt, content, receipts, present, ?_, passed, ?_⟩
    · rw [whole.size, accepts.fileSize]
    · intro checksum
      rw [← accepts.checksum] at checksum
      rw [← whole.hashed checksum]
      refine hashed.receipts receipt ?_ checksum
      have member :
          receipt ∈ final.receiptsFor applied.destPath := by
        have receipts :
            final.receiptsFor applied.destPath = _ := receipts
        rw [receipts]
        exact List.mem_append_right _ List.mem_cons_self
      exact List.mem_of_mem_filter member

/-! ## Falling back in place -/

/-- With both resume flags a finished file of the same size is offered to be
kept. -/
theorem handleAccept_keepsDest
    (peer : Peer) {applied : AppliedAccept} {content : List UInt8}
    (large : resumeThresholdBytes ≤ applied.size)
    (offered : peer.coordinator.offeredResume = true)
    (resume : applied.accept.resume = true)
    (absent : peer.files applied.partPath = none)
    (present : peer.files applied.destPath = some (.file content))
    (sized : content.length = applied.size) :
    peer.handleAccept applied.accept applied.name applied.size .none =
      (peer.withPartPath (some applied.partPath)).offerResume
        (applied.job applied.size false peer.coordinator.offeredNumber)
        applied.destPath .none := by
  obtain ⟨accept, name, size⟩ := applied
  have noPart :
      peer.files.isPresent
          (getPartPath (destinationPath accept.saveDir name)) = false := by
    rw [FileStore.isPresent]
    exact Option.isSome_eq_false_iff.mpr (Option.isNone_iff_eq_none.mpr absent)
  have isDest :
      peer.files.isPresent (destinationPath accept.saveDir name) =
        true := by
    rw [FileStore.isPresent]
    exact Option.isSome_iff_exists.mpr ⟨_, present⟩
  have measured :
      peer.lengthOrZero (destinationPath accept.saveDir name) .none =
        size := by
    have isLength :
        peer.files.length? (destinationPath accept.saveDir name) =
          some content.length := by
      rw [FileStore.length?]
      have present :
          peer.files (destinationPath accept.saveDir name) = _ := present
      rw [present]
    rw [Peer.lengthOrZero, isLength]
    exact sized
  have large : resumeThresholdBytes ≤ size := large
  have resume : accept.resume = true := resume
  simp only [Peer.handleAccept, if_pos large, offered, resume, noPart,
    isDest, measured, Bool.and_self, beq_self_eq_true, if_true,
    Bool.false_eq_true, if_false]
  rfl

/-- The answer, and the first steps of the receive that it starts. -/
def restartRun : List PeerLabel :=
  [.control ⟨.restartFromZero, 0⟩ .none,
    .recv .start,
    .recv (.openTarget .opened)]

/-- The peer after falling back, with a new staging file. -/
def Peer.fallenBack
    (peer : Peer) (job : RecvJob) (partPath : UnixPath) : Peer :=
  ((peer.clearResume.touch [partPath]
    (peer.files.put partPath [])).acceptFresh
      { job with resumeOffset := 0 }).noteHandled .restartFromZero

theorem handleRestart_fallsBack
    {peer : Peer} {job : RecvJob} {partPath : UnixPath}
    (running : peer.mainEnded = false)
    (resuming : peer.coordinator.pendingResumeRecv = some job)
    (isPart : peer.coordinator.currentPartPath = some partPath)
    (absent : peer.files partPath = none) :
    peerStep peer (.control ⟨.restartFromZero, 0⟩ .none) =
      some (peer.fallenBack job partPath) := by
  have recreated :
      peer.clearResume.recreatePart .none =
        peer.clearResume.touch [partPath] (peer.files.put partPath []) := by
    have isCurrent :
        peer.clearResume.coordinator.currentPartPath = some partPath :=
      isPart
    have created :
        peer.clearResume.files.create partPath =
          some (peer.files.put partPath []) :=
      FileStore.create_of_absent absent
    rw [Peer.recreatePart, isCurrent]
    simp only [created]
    rfl
  rw [Peer.fallenBack, ← recreated]
  simp only [peerStep, running, Bool.false_eq_true, if_false,
    Peer.handleControl, Peer.dispatch, Peer.handleRestart, resuming]

/-- Falling back from a finished file truncates it. -/
theorem restart_truncates
    {peer : Peer} {job : RecvJob} {partPath : UnixPath}
    {content : List UInt8}
    (running : peer.mainEnded = false)
    (resuming : peer.coordinator.pendingResumeRecv = some job)
    (isPart : peer.coordinator.currentPartPath = some partPath)
    (direct : job.usePart = false)
    (noneQueued : peer.recvQueue = []) (idle : peer.receiver = .idle)
    (absent : peer.files partPath = none)
    (present : peer.files job.destPath = some (.file content))
    (parents :
      ∀ path ∈ job.ancestors, ∃ length,
        peer.files path = some (.directory length)) :
    ∃ final,
      Run peerStep (fun peer label => peer.applied label = none) peer
          restartRun final ∧
        final.files job.destPath = some (.file []) ∧
          final.receipts = peer.receipts := by
  have handled := handleRestart_fallsBack running resuming isPart absent
  have queue :
      (peer.fallenBack job partPath).recvQueue =
        [{ job with resumeOffset := 0 }] := by
    change peer.recvQueue ++ _ = _
    rw [noneQueued]
    rfl
  have stillIdle : (peer.fallenBack job partPath).receiver = .idle := idle
  have started :
      peerStep (peer.fallenBack job partPath) (.recv .start) =
        some
          { peer.fallenBack job partPath with
            recvQueue := []
            receiver := .opening { job with resumeOffset := 0 } } := by
    simp only [peerStep, Peer.recvStep, stillIdle, queue]
  have other : ∀ path, peer.files path ≠ none → path ≠ partPath := by
    rintro path isPresent rfl
    exact isPresent absent
  have ensured :
      (peer.files.put partPath []).ensureDirectories job.ancestors =
        some (peer.files.put partPath []) := by
    apply FileStore.ensureDirectories_of_directories
    intro path member
    obtain ⟨length, isDirectory⟩ := parents path member
    refine ⟨length, ?_⟩
    rw [FileStore.put_other, isDirectory]
    apply other
    rw [isDirectory]
    simp
  have isTarget :
      RecvJob.targetWritePath { job with resumeOffset := 0 } =
        job.destPath :=
    targetWritePath_dest direct
  have created :
      RecvJob.openTarget { job with resumeOffset := 0 }
          (peer.files.put partPath []) =
        some ((peer.files.put partPath []).put job.destPath []) := by
    rw [RecvJob.openTarget, isTarget, if_neg (Nat.lt_irrefl 0),
      FileStore.create, FileStore.put_other, present]
    apply other
    rw [present]
    simp
  have opened :
      ∃ final,
        peerStep
            { peer.fallenBack job partPath with
              recvQueue := []
              receiver := .opening { job with resumeOffset := 0 } }
            (.recv (.openTarget .opened)) = some final ∧
          final.files =
              (peer.files.put partPath []).put job.destPath [] ∧
            final.receipts = peer.receipts := by
    simp only [peerStep, Peer.recvStep, Peer.openTarget]
    have sameFiles :
        (peer.fallenBack job partPath).files =
          peer.files.put partPath [] := rfl
    have sameAncestors :
        RecvJob.ancestors { job with resumeOffset := 0 } =
          job.ancestors := rfl
    rw [sameFiles, sameAncestors, ensured]
    simp only [created, Option.map_some]
    exact ⟨_, rfl, rfl, rfl⟩
  obtain ⟨final, opened, files, receipts⟩ := opened
  refine
    ⟨final,
      Run.cons rfl handled (Run.cons rfl started (Run.single rfl opened)),
      ?_, receipts⟩
  rw [files]
  exact FileStore.put_same _ _ _

/-- A save directory that holds a finished file `a`. -/
def finishedFiles (content : List UInt8) : Files :=
  FileStore.put
    (fun path =>
      if path = components "in" then some (.directory 4096) else none)
    (components "in/a") content

/-- The accept of an offer of `a` with both resume flags. -/
def resumingAccept (size : Nat) : AppliedAccept where
  accept := ⟨"in", false, true⟩
  name := "a"
  size := size

theorem resumingAccept_paths (size : Nat) :
    (resumingAccept size).destPath = components "in/a" ∧
      (resumingAccept size).partPath =
        components ("in/a" ++ partialFileSuffix) := by
  have dest : destinationPath "in" "a" = components "in/a" := by
    decide +kernel
  have part :
      getPartPath (components "in/a") =
        components ("in/a" ++ partialFileSuffix) := by
    decide +kernel
  have isDest : (resumingAccept size).destPath = components "in/a" := dest
  refine ⟨isDest, ?_⟩
  rw [AppliedAccept.partPath, isDest, part]

theorem resumingAccept_ancestors
    (size offset : Nat) (usePart : Bool) (offer : Nat) :
    ((resumingAccept size).job offset usePart offer).ancestors =
      [components "in"] := by
  rw [RecvJob.ancestors, AppliedAccept.job_destPath,
    (resumingAccept_paths size).1]
  decide +kernel

theorem finishedFiles_paths (content : List UInt8) (size : Nat) :
    finishedFiles content (resumingAccept size).destPath =
        some (.file content) ∧
      finishedFiles content (resumingAccept size).partPath = none ∧
        finishedFiles content (components "in") =
          some (.directory 4096) := by
  obtain ⟨dest, part⟩ := resumingAccept_paths size
  rw [dest, part, finishedFiles]
  refine ⟨FileStore.put_same _ _ _, ?_, ?_⟩
  · rw [FileStore.put_other, if_neg] <;> decide +kernel
  · rw [FileStore.put_other, if_pos rfl]
    decide +kernel

/-- An accept that waits for an offer. -/
def waitingPeer (files : Files) : Peer :=
  (Peer.initial files).handleCommand (.acceptFile "in" false true) .none

/-- The peer when the offer has been recorded. -/
def offeredPeer (files : Files) (size : Nat) : Peer :=
  (((waitingPeer files).recordOffer "a" size true false
    0).setPendingAccept none).clearOffer

/-- The peer that has offered to keep the finished file. -/
def resumingPeer (files : Files) (size : Nat) : Peer :=
  (waitingPeer files).handleControl ⟨.metadata "a" size true false, 0⟩ .none

theorem resumingPeer_eq
    {content : List UInt8} {size : Nat}
    (large : resumeThresholdBytes ≤ size)
    (sized : content.length = size) :
    resumingPeer (finishedFiles content) size =
      (((offeredPeer (finishedFiles content) size).withPartPath
        (some (resumingAccept size).partPath)).offerResume
          ((resumingAccept size).job size false 0)
          (resumingAccept size).destPath .none).noteHandled
        (.metadata "a" size true false) := by
  obtain ⟨present, absent, _⟩ := finishedFiles_paths content size
  have accepts :
      (offeredPeer (finishedFiles content) size).handleAccept
          (resumingAccept size).accept (resumingAccept size).name
          (resumingAccept size).size .none = _ :=
    handleAccept_keepsDest (offeredPeer (finishedFiles content) size) large
      rfl rfl absent present sized
  have isHandled :
      resumingPeer (finishedFiles content) size =
        ((offeredPeer (finishedFiles content) size).handleAccept
          (resumingAccept size).accept (resumingAccept size).name
          (resumingAccept size).size .none).noteHandled
            (.metadata "a" size true false) := rfl
  rw [isHandled, accepts]
  rfl

/-- Whatever finished file is offered to be kept, falling back truncates
it. -/
theorem finished_truncated
    {content : List UInt8} {size : Nat}
    (large : resumeThresholdBytes ≤ size)
    (sized : content.length = size) :
    ∃ final,
      Run peerStep (fun peer label => peer.applied label = none)
          (resumingPeer (finishedFiles content) size) restartRun final ∧
        final.files (resumingAccept size).destPath =
          some (.file []) := by
  obtain ⟨present, absent, isDirectory⟩ :=
    finishedFiles_paths content size
  have isPeer := resumingPeer_eq large sized
  have parents :
      ∀ path ∈ ((resumingAccept size).job size false 0).ancestors,
        ∃ length,
          finishedFiles content path = some (.directory length) := by
    rw [resumingAccept_ancestors]
    intro path member
    rw [List.mem_singleton.mp member]
    exact ⟨4096, isDirectory⟩
  have resuming :
      (resumingPeer (finishedFiles content)
          size).coordinator.pendingResumeRecv =
        some ((resumingAccept size).job size false 0) := by
    rw [isPeer]
    rfl
  have isPart :
      (resumingPeer (finishedFiles content)
          size).coordinator.currentPartPath =
        some (resumingAccept size).partPath := by
    rw [isPeer]
    rfl
  have files :
      (resumingPeer (finishedFiles content) size).files =
        finishedFiles content := by
    rw [isPeer]
    rfl
  have quiet :
      (resumingPeer (finishedFiles content) size).mainEnded = false ∧
        (resumingPeer (finishedFiles content) size).recvQueue = [] ∧
          (resumingPeer (finishedFiles content) size).receiver =
            .idle := by
    rw [isPeer]
    exact ⟨rfl, rfl, rfl⟩
  rw [← files] at absent present parents
  rw [← (resumingAccept size).job_destPath size false 0] at present
  obtain ⟨final, run, truncated, _⟩ :=
    restart_truncates quiet.1 resuming isPart rfl quiet.2.1 quiet.2.2
      absent present parents
  rw [AppliedAccept.job_destPath] at truncated
  exact ⟨final, run, truncated⟩

/-- A finished file whose resume falls back is truncated in place. -/
theorem destination_truncated_on_restart :
    ¬ ∀ (files : Files) (earlier later : List PeerLabel)
        (peer accepted final : Peer) (label : PeerLabel)
        (applied : AppliedAccept),
        replay peerStep (Peer.initial files) earlier = some peer →
          peer.applied label = some applied →
            resumeThresholdBytes ≤ applied.size →
              peerStep peer label = some accepted →
                Run peerStep (fun peer label => peer.applied label = none)
                    accepted later final →
                  final.files applied.destPath =
                      peer.files applied.destPath ∨
                    ∃ content,
                      final.files applied.destPath =
                          some (.file content) ∧
                        content.length = applied.size := by
  intro always
  have sized :
      (List.replicate resumeThresholdBytes (0 : UInt8)).length =
        resumeThresholdBytes :=
    List.length_replicate
  obtain ⟨final, run, truncated⟩ :=
    finished_truncated (Nat.le_refl resumeThresholdBytes) sized
  have before :=
    (finishedFiles_paths (List.replicate resumeThresholdBytes 0)
      resumeThresholdBytes).1
  have kept :=
    always _ [.command (.acceptFile "in" false true) .none] _ _ _ final
      (.control ⟨.metadata "a" resumeThresholdBytes true false, 0⟩ .none)
      (resumingAccept resumeThresholdBytes) rfl rfl (Nat.le_refl _) rfl run
  have positive := resumeThresholdBytes_pos
  rcases kept with same | ⟨content, isContent, isLength⟩
  · have isEmpty :
        [] = List.replicate resumeThresholdBytes (0 : UInt8) :=
      Node.file.inj
        (Option.some.inj (truncated.symm.trans (same.trans before)))
    rw [← isEmpty, List.length_nil] at sized
    omega
  · have isEmpty : [] = content :=
      Node.file.inj (Option.some.inj (truncated.symm.trans isContent))
    have isLength : content.length = resumeThresholdBytes := isLength
    rw [← isEmpty, List.length_nil] at isLength
    omega

/-- A small file that exists is not touched while a large one of its name
arrives and an offer of another name is accepted. -/
theorem staged_commit_fresh :
    ∃ final : Peer,
      final.files (components "in/a.quic-part") = some (.file []) ∧
        final.recvQueue.length = 1 ∧
          (final.files (resumingAccept resumeThresholdBytes).destPath =
              some (.file [1, 2, 3]) ∨
            ∃ receipt content,
              final.receiptsFor
                    (resumingAccept resumeThresholdBytes).destPath =
                  [receipt] ∧
                final.files (resumingAccept resumeThresholdBytes).destPath =
                    some (.file content) ∧
                  content.length = resumeThresholdBytes ∧
                  hashOk receipt.expectedHash
                      receipt.verified.actualHash = true ∧
                    (false = true →
                      receipt.verified.actualHash = sha256Hex content ∨
                        receipt.verified.actualHash = "NONE")) ∧
          (final.receiptsFor
                (resumingAccept resumeThresholdBytes).destPath ≠ [] →
            final.files (resumingAccept resumeThresholdBytes).partPath =
              none) := by
  have reached :
      (guardedReplay peerStep
        (Peer.Undisturbed (resumingAccept resumeThresholdBytes))
        ((waitingPeer (finishedFiles [1, 2, 3])).handleControl
          ⟨.metadata "a" resumeThresholdBytes false false, 0⟩ .none)
        [.recv .start,
          .command (.acceptFile "in" false true) .none,
          .control ⟨.metadata "b" resumeThresholdBytes false false, 1⟩
            .none,
          .recv (.openTarget .opened)]).map
          (fun final =>
            (final.files (components "in/a.quic-part"),
              final.recvQueue.length)) =
        some (some (.file []), 1) := by
    decide +kernel
  obtain ⟨final, ran, facts⟩ := Option.map_eq_some_iff.mp reached
  obtain ⟨created, queued⟩ := Prod.mk.inj facts
  have before :=
    (finishedFiles_paths [1, 2, 3] resumeThresholdBytes).1
  have waiting :
      replay peerStep (Peer.initial (finishedFiles [1, 2, 3]))
          [.command (.acceptFile "in" false true) .none] =
        some (waitingPeer (finishedFiles [1, 2, 3])) := rfl
  have isApplied :
      (waitingPeer (finishedFiles [1, 2, 3])).applied
          (.control ⟨.metadata "a" resumeThresholdBytes false false, 0⟩
            .none) =
        some (resumingAccept resumeThresholdBytes) := rfl
  have apart :
      (waitingPeer (finishedFiles [1, 2, 3])).Apart
        (resumingAccept resumeThresholdBytes) := nofun
  have stepped :
      peerStep (waitingPeer (finishedFiles [1, 2, 3]))
          (.control ⟨.metadata "a" resumeThresholdBytes false false, 0⟩
            .none) =
        some
          ((waitingPeer (finishedFiles [1, 2, 3])).handleControl
            ⟨.metadata "a" resumeThresholdBytes false false, 0⟩
            .none) := rfl
  have guaranteed :=
    staged_commit waiting isApplied (Nat.le_refl _) apart nofun stepped
      (run_of_guardedReplay ran)
  rw [← before]
  exact ⟨final, created, queued, guaranteed⟩

end Quiczilla
