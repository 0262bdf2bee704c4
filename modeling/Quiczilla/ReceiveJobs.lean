import Quiczilla.ReceiveSide

/-!
# Where receive jobs and file operations come from

Every job of the receive side goes back to an accept of an offer, and every
file that a step changes is one that the step touched.  Both facts hold in
every run against an arbitrary counterpart.
-/

namespace Quiczilla

open Foundation

/-- The job of a phase satisfies the condition, and the task writes where the
job says. -/
def RecvPhase.Holds (condition : RecvJob → Prop) : RecvPhase → Prop
  | .idle => True
  | .opening job => condition job
  | .receiving current =>
      condition current.job ∧
        current.targetWritePath = current.job.targetWritePath
  | .verifying current =>
      condition current.job ∧
        current.targetWritePath = current.job.targetWritePath
  | .stopped => True

theorem RecvPhase.Holds.mono
    {condition weaker : RecvJob → Prop} {phase : RecvPhase}
    (holds : phase.Holds condition)
    (implied : ∀ job, condition job → weaker job) :
    phase.Holds weaker := by
  cases phase with
  | idle => trivial
  | opening job => exact implied job holds
  | receiving current => exact ⟨implied _ holds.1, holds.2⟩
  | verifying current => exact ⟨implied _ holds.1, holds.2⟩
  | stopped => trivial

structure RecvSide.Jobs
    (condition : RecvJob → Prop) (side : RecvSide) : Prop where
  resuming :
    ∀ job, side.pendingResumeRecv = some job → condition job
  queued : ∀ job ∈ side.recvQueue, condition job
  active : side.receiver.Holds condition

/-- Falling back to byte zero keeps the condition. -/
def StableUnderRestart (condition : RecvJob → Prop) : Prop :=
  ∀ job, condition job → condition { job with resumeOffset := 0 }

/-- Every job that the accept can lead to satisfies the condition. -/
def AppliedAccept.Leads
    (applied : AppliedAccept) (condition : RecvJob → Prop) : Prop :=
  ∀ offset usePart offer,
    (usePart = true → resumeThresholdBytes ≤ applied.size) →
      condition (applied.job offset usePart offer)

/-- The same of the offsets that `handle_accept` computes. -/
def AppliedAccept.LeadsWithin
    (applied : AppliedAccept) (condition : RecvJob → Prop) : Prop :=
  ∀ offset usePart offer, offset ≤ applied.size →
    (usePart = true → resumeThresholdBytes ≤ applied.size) →
      condition (applied.job offset usePart offer)

theorem AppliedAccept.Leads.within
    {applied : AppliedAccept} {condition : RecvJob → Prop}
    (leads : applied.Leads condition) : applied.LeadsWithin condition :=
  fun offset usePart offer _ => leads offset usePart offer

/-- The job writes only where the condition holds. -/
def WritesWithin (within : UnixPath → Prop) (job : RecvJob) : Prop :=
  within job.targetWritePath ∧ within job.destPath

theorem writesWithin_stable (within : UnixPath → Prop) :
    StableUnderRestart (WritesWithin within) :=
  fun _ holds => holds

theorem leads_writesWithin
    {within : UnixPath → Prop} {applied : AppliedAccept}
    (dest : within applied.destPath)
    (part :
      resumeThresholdBytes ≤ applied.size → within applied.partPath) :
    applied.Leads (WritesWithin within) := by
  intro offset usePart offer staged
  rw [WritesWithin, AppliedAccept.job_destPath]
  refine ⟨?_, dest⟩
  cases usePart with
  | false =>
      rw [targetWritePath_dest rfl, AppliedAccept.job_destPath]
      exact dest
  | true =>
      rw [targetWritePath_part rfl, AppliedAccept.job_destPath]
      exact part (staged rfl)

variable {condition : RecvJob → Prop}

theorem acceptEffect_jobs
    {applied : AppliedAccept} {faults : Faults} {side next : RecvSide}
    (jobs : side.Jobs condition) (leads : applied.LeadsWithin condition)
    (effect : AcceptEffect applied faults side next) :
    next.Jobs condition := by
  cases effect with
  | small offer small =>
      refine ⟨jobs.resuming, ?_, jobs.active⟩
      intro job member
      rcases List.mem_append.mp member with earlier | new
      · exact jobs.queued job earlier
      · rw [List.mem_singleton.mp new]
        exact leads 0 false offer (Nat.zero_le _) nofun
  | fresh offer large =>
      refine ⟨jobs.resuming, ?_, jobs.active⟩
      intro job member
      rcases List.mem_append.mp member with earlier | new
      · exact jobs.queued job earlier
      · rw [List.mem_singleton.mp new]
        exact leads 0 true offer (Nat.zero_le _) fun _ => large
  | keepPart offer existing large _ _ _ _ =>
      refine ⟨?_, jobs.queued, jobs.active⟩
      intro job resuming
      rw [← Option.some.inj resuming]
      exact
        leads _ true offer (alignedOffset_le existing applied.size).2
          fun _ => large
  | cutPart offer existing cut large _ _ _ _ =>
      refine ⟨?_, jobs.queued, jobs.active⟩
      intro job resuming
      rw [← Option.some.inj resuming]
      exact
        leads _ true offer (alignedOffset_le existing applied.size).2
          fun _ => large
  | keepDest offer large _ _ _ _ =>
      refine ⟨?_, jobs.queued, jobs.active⟩
      intro job resuming
      rw [← Option.some.inj resuming]
      exact leads _ false offer le_rfl nofun

theorem loopEffect_jobs
    {peer : Peer} {label : PeerLabel} {next : RecvSide}
    (jobs : peer.recvSide.Jobs condition)
    (stable : StableUnderRestart condition)
    (leads :
      ∀ applied, peer.applied label = some applied →
        applied.LeadsWithin condition)
    (effect : LoopEffect peer label next) :
    next.Jobs condition := by
  have restarted :
      ∀ {job}, peer.coordinator.pendingResumeRecv = some job →
        ∀ other ∈ peer.recvQueue ++ [{ job with resumeOffset := 0 }],
          condition other := by
    intro job resuming other member
    rcases List.mem_append.mp member with earlier | new
    · exact jobs.queued other earlier
    · rw [List.mem_singleton.mp new]
      exact stable job (jobs.resuming job resuming)
  cases effect with
  | quiet _ => exact jobs
  | accepted applied faults next isApplied _ effect =>
      exact acceptEffect_jobs jobs (leads applied isApplied) effect
  | resumed job _ _ resuming =>
      refine ⟨nofun, ?_, jobs.active⟩
      intro other member
      rcases List.mem_append.mp member with earlier | new
      · exact jobs.queued other earlier
      · rw [List.mem_singleton.mp new]
        exact jobs.resuming job resuming
  | restarted job _ _ resuming =>
      exact ⟨nofun, restarted resuming, jobs.active⟩
  | recreated job partPath created _ _ resuming _ _ =>
      exact ⟨nofun, restarted resuming, jobs.active⟩

theorem taskEffect_jobs
    {label : RecvLabel} {peer next : Peer}
    (jobs : peer.recvSide.Jobs condition)
    (effect : TaskEffect label peer next) :
    next.recvSide.Jobs condition := by
  have active : peer.receiver.Holds condition := jobs.active
  have withReceiver :
      ∀ {other : Peer}, other.receiver.Holds condition →
        other.coordinator.pendingResumeRecv =
            peer.coordinator.pendingResumeRecv →
          other.recvQueue = peer.recvQueue →
            other.recvSide.Jobs condition := by
    intro other holds resuming queue
    refine ⟨?_, ?_, holds⟩
    · intro job waiting
      exact jobs.resuming job (resuming.symm.trans waiting)
    · intro job member
      have earlier : job ∈ peer.recvQueue := queue ▸ member
      exact jobs.queued job earlier
  cases effect with
  | started job rest _ queued =>
      have member : ∀ other, other ∈ job :: rest → condition other := by
        rw [← queued]
        exact jobs.queued
      exact
        ⟨jobs.resuming,
          fun other later => member other (List.mem_cons_of_mem _ later),
          member job List.mem_cons_self⟩
  | opened job files opened opening _ _ =>
      rw [opening] at active
      exact withReceiver ⟨active, rfl⟩ rfl rfl
  | received receiving chunk loopEnd _ phase _ _ _ _ _ =>
      rw [phase] at active
      exact withReceiver active rfl rfl
  | loopFailed receiving phase =>
      rw [phase] at active
      exact withReceiver active rfl rfl
  | loopEnded receiving phase _ _ =>
      rw [phase] at active
      exact withReceiver active rfl rfl
  | storedChunk receiving chunk rest phase _ _ =>
      rw [phase] at active
      exact withReceiver active rfl rfl
  | writerFailed receiving chunk rest length phase _ =>
      rw [phase] at active
      exact withReceiver active rfl rfl
  | reported receiving => exact jobs
  | closed receiving flushFails rehashFails _ phase _ _ _ =>
      rw [phase] at active
      exact withReceiver active rfl rfl
  | _ => exact withReceiver trivial rfl rfl

theorem peerStep_jobs
    {peer next : Peer} {label : PeerLabel}
    (jobs : peer.recvSide.Jobs condition)
    (stable : StableUnderRestart condition)
    (leads :
      ∀ applied, peer.applied label = some applied →
        applied.LeadsWithin condition)
    (stepped : peerStep peer label = some next) :
    next.recvSide.Jobs condition := by
  rcases peerStep_effect stepped with effect | ⟨_, _, effect⟩
  · exact loopEffect_jobs jobs stable leads effect
  · exact taskEffect_jobs jobs effect

theorem initial_jobs (files : Files) :
    (Peer.initial files).recvSide.Jobs condition :=
  ⟨nofun, nofun, trivial⟩

/-- The receive task touches nothing but targets and, when it commits,
destinations of its jobs. -/
theorem taskEffect_touched
    {label : RecvLabel} {peer next : Peer}
    (jobs : peer.recvSide.Jobs condition)
    (effect : TaskEffect label peer next) :
    ∀ path ∈ next.touched, path ∈ peer.touched ∨
      ∃ job, condition job ∧
        (path = job.targetWritePath ∨ path = job.destPath) := by
  have active : peer.receiver.Holds condition := jobs.active
  have target :
      ∀ {job : RecvJob} {written : UnixPath}, condition job →
        written = job.targetWritePath →
          ∀ path ∈ peer.touched ++ [written], path ∈ peer.touched ∨
            ∃ job, condition job ∧
              (path = job.targetWritePath ∨ path = job.destPath) := by
    intro job written holds isTarget path member
    rcases List.mem_append.mp member with earlier | new
    · exact Or.inl earlier
    · rw [List.mem_singleton.mp new]
      exact Or.inr ⟨job, holds, Or.inl isTarget⟩
  cases effect with
  | seekFailed job files opened opening _ _ =>
      rw [opening] at active
      exact target active rfl
  | opened job files opened opening _ _ =>
      rw [opening] at active
      exact target active rfl
  | storedChunk receiving chunk rest phase _ _ =>
      rw [phase] at active
      exact target active.1 active.2
  | writerFailed receiving chunk rest length phase _ =>
      rw [phase] at active
      exact target active.1 active.2
  | committed verifying expectedHash rest renamed phase _ _ _ _ =>
      rw [phase] at active
      intro path member
      rcases List.mem_append.mp member with earlier | new
      · exact Or.inl earlier
      · rcases List.mem_pair.mp new with isTarget | isDest
        · exact
            Or.inr ⟨_, active.1, Or.inl (isTarget.trans active.2)⟩
        · exact Or.inr ⟨_, active.1, Or.inr isDest⟩
  | _ => exact fun path member => Or.inl member

/-! ## Untouched files -/

/-- What a step may do to a path that it does not touch: nothing, or create a
directory there. -/
def SameOrNewDirectory (before after : Option Node) : Prop :=
  after = before ∨ (before = none ∧ after = some (.directory 4096))

/-- Files that the step does not touch keep their contents. -/
def RecvSide.Frame (side next : RecvSide) : Prop :=
  side.touched <+: next.touched ∧
    ∀ path, path ∉ next.touched →
      SameOrNewDirectory (side.files path) (next.files path)

theorem frame_refl (side : RecvSide) : side.Frame side :=
  ⟨List.prefix_rfl, fun _ _ => Or.inl rfl⟩

theorem frame_of_eq
    {side next : RecvSide} (files : next.files = side.files)
    (touched : next.touched = side.touched) :
    side.Frame next := by
  refine ⟨touched ▸ List.prefix_rfl, ?_⟩
  intro path _
  rw [files]
  exact Or.inl rfl

/-- An operation on one path frames all others. -/
theorem frame_of_touch
    {side next : RecvSide} {paths : List UnixPath}
    (touched : next.touched = side.touched ++ paths)
    (same :
      ∀ path, path ∉ paths →
        SameOrNewDirectory (side.files path) (next.files path)) :
    side.Frame next := by
  refine ⟨touched ▸ List.prefix_append _ _, ?_⟩
  intro path untouched
  rw [touched] at untouched
  exact
    same path fun member =>
      untouched (List.mem_append.mpr (Or.inr member))

theorem openTarget_other
    {job : RecvJob} {files opened : Files}
    (targetOpened : job.openTarget files = some opened)
    {path : UnixPath} (other : path ≠ job.targetWritePath) :
    opened path = files path := by
  unfold RecvJob.openTarget at targetOpened
  split at targetOpened
  · rcases FileStore.openWrite_eq_some targetOpened with
      ⟨rfl, _⟩ | ⟨_, rfl⟩
    · rfl
    · exact FileStore.put_other files [] other
  · rw [(FileStore.create_eq_some targetOpened).1]
    exact FileStore.put_other files [] other

theorem acceptEffect_frame
    {applied : AppliedAccept} {faults : Faults} {side next : RecvSide}
    (effect : AcceptEffect applied faults side next) :
    side.Frame next := by
  cases effect with
  | small offer _ => exact frame_of_eq rfl rfl
  | fresh offer _ => exact frame_of_eq rfl rfl
  | keepPart offer existing _ _ _ _ _ => exact frame_of_eq rfl rfl
  | cutPart offer existing cut _ _ _ _ succeeded =>
      apply frame_of_touch rfl
      intro path other
      have different := List.ne_of_not_mem_cons other
      have kept : cut path = side.files path := by
        obtain ⟨content, _, cutIs⟩ :=
          FileStore.setLength_eq_some succeeded
        rw [cutIs]
        exact FileStore.put_other _ _ different
      exact Or.inl kept
  | keepDest offer _ _ _ _ _ => exact frame_of_eq rfl rfl

theorem loopEffect_frame
    {peer : Peer} {label : PeerLabel} {next : RecvSide}
    (effect : LoopEffect peer label next) :
    peer.recvSide.Frame next := by
  cases effect with
  | quiet _ => exact frame_refl _
  | accepted applied faults next _ _ effect =>
      exact acceptEffect_frame effect
  | resumed job _ _ _ => exact frame_of_eq rfl rfl
  | restarted job _ _ _ => exact frame_of_eq rfl rfl
  | recreated job partPath created _ _ _ _ succeeded =>
      apply frame_of_touch rfl
      intro path other
      have different := List.ne_of_not_mem_cons other
      rw [(FileStore.create_eq_some succeeded).1]
      exact Or.inl (FileStore.put_other _ _ different)

theorem ensureDirectories_frame
    {files next : Files} {ancestors : List UnixPath}
    (made : files.ensureDirectories ancestors = some next)
    (path : UnixPath) :
    SameOrNewDirectory (files path) (next path) := by
  rcases FileStore.ensureDirectories_spec made path with
    same | ⟨_, absent, created⟩
  · exact Or.inl same
  · exact Or.inr ⟨absent, created⟩

theorem taskEffect_frame
    {label : RecvLabel} {peer next : Peer}
    (effect : TaskEffect label peer next) :
    peer.recvSide.Frame next.recvSide := by
  have opens :
      ∀ {job : RecvJob} {files opened : Files},
        peer.files.ensureDirectories job.ancestors = some files →
          job.openTarget files = some opened →
            ∀ {side : RecvSide}, side.files = opened →
              side.touched = peer.touched ++ [job.targetWritePath] →
                peer.recvSide.Frame side := by
    intro job files opened made targetOpened side isOpened touched
    apply frame_of_touch touched
    intro path other
    have different := List.ne_of_not_mem_cons other
    rw [isOpened, openTarget_other targetOpened different]
    exact ensureDirectories_frame made path
  have writes :
      ∀ (receiving : Receiving) (bytes : List UInt8) {side : RecvSide},
        side.files = (peer.storeBytes receiving bytes).files →
          side.touched =
              peer.touched ++ [receiving.targetWritePath] →
            peer.recvSide.Frame side := by
    intro receiving bytes side written touched
    apply frame_of_touch touched
    intro path other
    rw [written]
    exact
      Or.inl
        (FileStore.writeAt_other _ _ _ (List.ne_of_not_mem_cons other))
  cases effect with
  | refused job files _ made =>
      refine ⟨List.prefix_rfl, ?_⟩
      intro path _
      rcases made with rfl | made
      · exact Or.inl rfl
      · exact ensureDirectories_frame made path
  | seekFailed job files opened _ made targetOpened =>
      exact opens made targetOpened rfl rfl
  | opened job files opened _ made targetOpened =>
      exact opens made targetOpened rfl rfl
  | storedChunk receiving chunk rest _ _ _ =>
      exact writes receiving chunk rfl rfl
  | writerFailed receiving chunk rest length _ _ =>
      exact writes receiving (chunk.take length) rfl rfl
  | committed verifying expectedHash rest renamed _ _ _ _ moved =>
      apply frame_of_touch rfl
      intro path other
      obtain ⟨content, _, isRenamed, _⟩ :=
        FileStore.rename_eq_some moved
      have notTarget : path ≠ verifying.job.destPath := by
        rintro rfl
        simp at other
      have notSource : path ≠ verifying.targetWritePath :=
        List.ne_of_not_mem_cons other
      refine Or.inl ?_
      change renamed path = peer.files path
      rw [isRenamed, FileStore.put_other _ _ notTarget,
        FileStore.remove_other _ notSource]
  | _ => exact frame_of_eq rfl rfl

theorem peerStep_frame
    {peer next : Peer} {label : PeerLabel}
    (stepped : peerStep peer label = some next) :
    peer.recvSide.Frame next.recvSide := by
  rcases peerStep_effect stepped with effect | ⟨_, _, effect⟩
  · exact loopEffect_frame effect
  · exact taskEffect_frame effect

theorem openTarget_keepsDirectories
    {job : RecvJob} {files opened : Files}
    (targetOpened : job.openTarget files = some opened) :
    files.KeepsDirectories opened := by
  unfold RecvJob.openTarget at targetOpened
  split at targetOpened
  · exact FileStore.keepsDirectories_openWrite targetOpened
  · exact FileStore.keepsDirectories_create targetOpened

/-- A directory cannot be opened for writing. -/
theorem openTarget_notDirectory
    {job : RecvJob} {files opened : Files}
    (targetOpened : job.openTarget files = some opened) (length : Nat) :
    files job.targetWritePath ≠ some (.directory length) := by
  intro isDirectory
  unfold RecvJob.openTarget at targetOpened
  split at targetOpened
  · rw [FileStore.openWrite, isDirectory] at targetOpened
    cases targetOpened
  · rw [FileStore.create, isDirectory] at targetOpened
    cases targetOpened

theorem loopEffect_keepsDirectories
    {peer : Peer} {label : PeerLabel} {next : RecvSide}
    (effect : LoopEffect peer label next) :
    peer.files.KeepsDirectories next.files := by
  have refl := FileStore.keepsDirectories_refl peer.files
  cases effect with
  | accepted applied faults next _ _ effect =>
      cases effect with
      | cutPart offer existing cut _ _ _ _ succeeded =>
          exact FileStore.keepsDirectories_setLength succeeded
      | _ => exact refl
  | recreated job partPath created _ _ _ _ succeeded =>
      exact FileStore.keepsDirectories_create succeeded
  | _ => exact refl

theorem taskEffect_keepsDirectories
    {label : RecvLabel} {peer next : Peer}
    (effect : TaskEffect label peer next) :
    peer.files.KeepsDirectories next.files := by
  cases effect with
  | refused job files _ made =>
      rcases made with rfl | made
      · exact FileStore.keepsDirectories_refl peer.files
      · exact FileStore.keepsDirectories_ensureDirectories made
  | seekFailed job files opened _ made targetOpened =>
      exact
        (FileStore.keepsDirectories_ensureDirectories made).trans
          (openTarget_keepsDirectories targetOpened)
  | opened job files opened _ made targetOpened =>
      exact
        (FileStore.keepsDirectories_ensureDirectories made).trans
          (openTarget_keepsDirectories targetOpened)
  | storedChunk receiving chunk rest _ _ _ =>
      exact FileStore.keepsDirectories_writeAt _ _ _ _
  | writerFailed receiving chunk rest length _ _ =>
      exact FileStore.keepsDirectories_writeAt _ _ _ _
  | committed verifying expectedHash rest renamed _ _ _ _ moved =>
      exact FileStore.keepsDirectories_rename moved
  | _ => exact FileStore.keepsDirectories_refl peer.files

theorem peerStep_keepsDirectories
    {peer next : Peer} {label : PeerLabel}
    (stepped : peerStep peer label = some next) :
    peer.files.KeepsDirectories next.files := by
  rcases peerStep_effect stepped with effect | ⟨recvLabel, _, effect⟩
  · exact loopEffect_keepsDirectories effect
  · exact taskEffect_keepsDirectories effect

/-! ## The file that is being written -/

/-- Where the open file of a phase lies. -/
def RecvPhase.target : RecvPhase → Option UnixPath
  | .receiving current => some current.targetWritePath
  | .verifying current => some current.targetWritePath
  | _ => none

/-- An open file has been touched. -/
def RecvSide.Opened (side : RecvSide) : Prop :=
  ∀ path, side.receiver.target = some path → path ∈ side.touched

theorem loopEffect_receiver
    {peer : Peer} {label : PeerLabel} {next : RecvSide}
    (effect : LoopEffect peer label next) :
    next.receiver = peer.receiver ∧ next.receipts = peer.receipts := by
  cases effect with
  | accepted applied faults next _ _ effect =>
      cases effect <;> exact ⟨rfl, rfl⟩
  | _ => exact ⟨rfl, rfl⟩

theorem taskEffect_opened
    {label : RecvLabel} {peer next : Peer}
    (opened : peer.recvSide.Opened)
    (effect : TaskEffect label peer next) :
    next.recvSide.Opened := by
  have stays :
      ∀ {other : Peer}, other.receiver.target = peer.receiver.target →
        peer.touched <+: other.touched → other.recvSide.Opened := by
    intro other same grown path isTarget
    exact grown.subset (opened path (same.symm.trans isTarget))
  cases effect with
  | opened job files opened _ _ _ =>
      intro path isTarget
      rw [← Option.some.inj isTarget]
      exact List.mem_append_right _ (List.mem_singleton.mpr rfl)
  | received receiving chunk loopEnd _ phase _ _ _ _ _ =>
      exact stays (congrArg RecvPhase.target phase).symm List.prefix_rfl
  | loopFailed receiving phase =>
      exact stays (congrArg RecvPhase.target phase).symm List.prefix_rfl
  | loopEnded receiving phase _ _ =>
      exact stays (congrArg RecvPhase.target phase).symm List.prefix_rfl
  | storedChunk receiving chunk rest phase _ _ =>
      exact
        stays (congrArg RecvPhase.target phase).symm
          (List.prefix_append _ _)
  | writerFailed receiving chunk rest length phase _ =>
      exact
        stays (congrArg RecvPhase.target phase).symm
          (List.prefix_append _ _)
  | reported receiving => exact stays rfl List.prefix_rfl
  | closed receiving flushFails rehashFails _ phase _ _ _ =>
      exact stays (congrArg RecvPhase.target phase).symm List.prefix_rfl
  | _ => nofun

theorem peerStep_opened
    {peer next : Peer} {label : PeerLabel}
    (opened : peer.recvSide.Opened)
    (stepped : peerStep peer label = some next) :
    next.recvSide.Opened := by
  have grown := (peerStep_frame stepped).1
  rcases peerStep_effect stepped with effect | ⟨recvLabel, _, effect⟩
  · intro path isTarget
    rw [(loopEffect_receiver effect).1] at isTarget
    exact grown.subset (opened path isTarget)
  · exact taskEffect_opened opened effect

/-- A file that a run never touches is the same at its end. -/
theorem untouched_file_kept
    {peer next : Peer} {label : PeerLabel} {path : UnixPath}
    {content : List UInt8}
    (stepped : peerStep peer label = some next)
    (untouched : path ∉ next.touched)
    (present : peer.files path = some (.file content)) :
    next.files path = some (.file content) := by
  rcases (peerStep_frame stepped).2 path untouched with
    same | ⟨absent, _⟩
  · exact same.trans present
  · have absent : peer.files path = none := absent
    rw [present] at absent
    cases absent

end Quiczilla
