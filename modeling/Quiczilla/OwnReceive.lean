import Quiczilla.SoleReceive

/-!
# One receive among others

The receive side of a peer, seen from the receives of one destination: what
waits, is queued, runs and has been completed for other destinations is left
out.  A step is then either a step for this destination, or it changes nothing
of the view but files that it does not use.
-/

namespace Quiczilla

open Foundation

/-- The paths that an accept can lead to writes at. -/
def AppliedAccept.paths (applied : AppliedAccept) : List UnixPath :=
  if resumeThresholdBytes ≤ applied.size then
    [applied.partPath, applied.destPath]
  else [applied.destPath]

/-- The paths that a receive writes at. -/
def RecvJob.paths (job : RecvJob) : List UnixPath :=
  [job.targetWritePath, job.destPath]

theorem destPath_mem_paths (applied : AppliedAccept) :
    applied.destPath ∈ applied.paths := by
  unfold AppliedAccept.paths
  split <;> simp

theorem paths_of_large
    {applied : AppliedAccept}
    (large : resumeThresholdBytes ≤ applied.size) :
    applied.paths = [applied.partPath, applied.destPath] :=
  if_pos large

/-- A job of the accept writes at paths of the accept. -/
theorem job_paths
    {applied : AppliedAccept} {usePart : Bool}
    (staged : usePart = true → resumeThresholdBytes ≤ applied.size)
    (offset offer : Nat) :
    ∀ path ∈ (applied.job offset usePart offer).paths,
      path ∈ applied.paths := by
  intro path member
  cases usePart with
  | true =>
      rw [RecvJob.paths, job_target_part, AppliedAccept.job_destPath]
        at member
      rw [paths_of_large (staged rfl)]
      exact member
  | false =>
      rw [RecvJob.paths, job_target_dest, AppliedAccept.job_destPath]
        at member
      have isDest : path = applied.destPath := by simpa using member
      rw [isDest]
      exact destPath_mem_paths applied

/-! ## The view -/

section View

variable (destPath : UnixPath)

def RecvJob.isFor (job : RecvJob) : Bool :=
  job.destPath == destPath

def RecvPhase.only (phase : RecvPhase) : RecvPhase :=
  if phase.job?.all (·.isFor destPath) then phase else .idle

def RecvSide.only (side : RecvSide) : RecvSide :=
  { side with
    pendingResumeRecv := side.pendingResumeRecv.filter (·.isFor destPath)
    recvQueue := side.recvQueue.filter (·.isFor destPath)
    receiver := side.receiver.only destPath
    receipts :=
      side.receipts.filter (·.verified.job.isFor destPath) }

/-- The peer without the receives of other destinations. -/
def Peer.only (peer : Peer) : Peer :=
  { peer with
    coordinator :=
      { peer.coordinator with
        pendingResumeRecv :=
          peer.coordinator.pendingResumeRecv.filter (·.isFor destPath) }
    recvQueue := peer.recvQueue.filter (·.isFor destPath)
    receiver := peer.receiver.only destPath
    receipts :=
      peer.receipts.filter (·.verified.job.isFor destPath) }

end View

section Only

variable {destPath : UnixPath} {peer next : Peer} {job : RecvJob}

theorem isFor_iff : job.isFor destPath = true ↔ job.destPath = destPath :=
  beq_iff_eq

theorem isFor_eq_false (other : job.destPath ≠ destPath) :
    job.isFor destPath = false :=
  beq_false_of_ne other

/-- A phase without a job, or with one for the destination, is seen. -/
theorem only_phase
    {phase : RecvPhase}
    (own : ∀ job, phase.job? = some job → job.destPath = destPath) :
    phase.only destPath = phase := by
  rw [RecvPhase.only, if_pos]
  cases isJob : phase.job? with
  | none => rfl
  | some job =>
      rw [Option.all_some]
      exact isFor_iff.mpr (own job isJob)

theorem only_phase_other
    {phase : RecvPhase} (isJob : phase.job? = some job)
    (other : job.destPath ≠ destPath) :
    phase.only destPath = .idle := by
  rw [RecvPhase.only, if_neg]
  rw [isJob, Option.all_some, isFor_eq_false other]
  exact Bool.false_ne_true

theorem only_phase_job?
    {phase : RecvPhase} (isJob : (phase.only destPath).job? = some job) :
    phase.job? = some job ∧ job.destPath = destPath := by
  unfold RecvPhase.only at isJob
  split at isJob
  · rename_i own
    rw [isJob, Option.all_some] at own
    exact ⟨isJob, isFor_iff.mp own⟩
  · cases isJob

/-- What is unfinished in the view is what is unfinished for the
destination. -/
theorem mem_unfinished_only
    {side : RecvSide} (member : job ∈ (side.only destPath).unfinished) :
    job ∈ side.unfinished ∧ job.destPath = destPath := by
  simp only [RecvSide.unfinished, RecvSide.only, List.mem_append,
    Option.mem_toList, Option.filter_eq_some_iff, List.mem_filter]
    at member ⊢
  obtain (⟨waiting, own⟩ | ⟨queued, own⟩) | active := member
  · exact ⟨Or.inl (Or.inl waiting), isFor_iff.mp own⟩
  · exact ⟨Or.inl (Or.inr queued), isFor_iff.mp own⟩
  · obtain ⟨isActive, own⟩ := only_phase_job? active
    exact ⟨Or.inr isActive, own⟩

end Only

/-! ## Steps of other receives -/

/-- A step leaves the receives that use these paths alone, except that one
which waits for an answer may be forgotten and that an idle task may stop. -/
structure RecvSide.Beside
    (paths : List UnixPath) (side next : RecvSide) : Prop where
  waiting :
    next.pendingResumeRecv = none ∨
      next.pendingResumeRecv = side.pendingResumeRecv
  queue : next.recvQueue = side.recvQueue
  receiver :
    next.receiver = side.receiver ∨
      (side.receiver = .idle ∧ next.receiver = .stopped)
  receipts : next.receipts = side.receipts
  files : ∀ path ∈ paths, next.files path = side.files path
  part :
    next.currentPartPath = side.currentPartPath ∨
      ∀ path ∈ paths, next.currentPartPath ≠ some path

section Beside

variable {before : Files} {applied : AppliedAccept}
  {earlier : List Receipt} {side next : RecvSide} {job : RecvJob}

theorem job?_beside (beside : side.Beside applied.paths next) :
    next.receiver.job? = side.receiver.job? := by
  obtain same | ⟨idle, stopped⟩ := beside.receiver
  · rw [same]
  · rw [idle, stopped]
    rfl

/-- A phase with a job is that of before. -/
theorem phase_beside
    (beside : side.Beside applied.paths next) {phase : RecvPhase}
    (isPhase : next.receiver = phase) (active : phase ≠ .stopped) :
    side.receiver = phase := by
  obtain same | ⟨-, stopped⟩ := beside.receiver
  · rw [← same, isPhase]
  · exact absurd (isPhase.symm.trans stopped) active

theorem unfinished_beside
    (beside : side.Beside applied.paths next) :
    next.unfinished.Sublist side.unfinished := by
  rw [RecvSide.unfinished, RecvSide.unfinished, beside.queue,
    job?_beside beside]
  obtain noneWaiting | same := beside.waiting
  · rw [noneWaiting]
    exact
      (List.nil_sublist _).append (List.Sublist.refl _) |>.append
        (List.Sublist.refl _)
  · rw [same]

theorem waiting_beside
    (beside : side.Beside applied.paths next)
    (isWaiting : next.pendingResumeRecv = some job) :
    side.pendingResumeRecv = some job := by
  obtain noneWaiting | same := beside.waiting
  · rw [noneWaiting] at isWaiting
    cases isWaiting
  · rw [← same]
    exact isWaiting

/-- A receive for the accept writes at paths of the accept. -/
theorem target_mem_paths
    (large : resumeThresholdBytes ≤ applied.size)
    (accepts : applied.Accepts job) :
    job.targetWritePath ∈ applied.paths := by
  rw [paths_of_large large, RecvJob.targetWritePath, accepts.destPath]
  split
  · exact List.mem_cons_self
  · exact List.mem_cons_of_mem _ List.mem_cons_self

theorem RecvJob.Grounded.beside
    {files after : Files} (grounded : job.Grounded before files)
    (same : after job.targetWritePath = files job.targetWritePath) :
    job.Grounded before after := by
  intro positive
  rw [same]
  exact grounded positive

/-- A step beside the accepted receive keeps what it has on disk. -/
theorem RecvSide.Sole.beside
    (sole : side.Sole before applied earlier)
    (large : resumeThresholdBytes ≤ applied.size)
    (beside : side.Beside applied.paths next) :
    next.Sole before applied earlier := by
  have sameTarget {job : RecvJob} (accepts : applied.Accepts job) :
      next.files job.targetWritePath = side.files job.targetWritePath :=
    beside.files _ (target_mem_paths large accepts)
  have active := sole.jobs.active
  constructor
  case sole =>
    exact (unfinished_beside beside).length_le.trans sole.sole
  case jobs =>
    refine ⟨?_, ?_, ?_⟩
    · exact fun job isWaiting =>
        sole.jobs.resuming job (waiting_beside beside isWaiting)
    · rw [beside.queue]
      exact sole.jobs.queued
    · obtain same | ⟨-, stopped⟩ := beside.receiver
      · rw [same]
        exact active
      · rw [stopped]
        trivial
  case resuming =>
    intro job isWaiting
    have isWaiting := waiting_beside beside isWaiting
    exact
      (sole.resuming job isWaiting).beside
        (sameTarget (sole.jobs.resuming job isWaiting))
  case queued =>
    rw [beside.queue]
    intro job member
    exact
      (sole.queued job member).beside
        (sameTarget (sole.jobs.queued job member))
  case opening =>
    intro job isPhase
    have phase := phase_beside beside isPhase nofun
    rw [phase] at active
    exact (sole.opening job phase).beside (sameTarget active)
  case receiving =>
    intro current isPhase
    have phase := phase_beside beside isPhase nofun
    rw [phase] at active
    obtain ⟨accounted, kept, onDisk⟩ := sole.receiving current phase
    have same := sameTarget active.1
    rw [← active.2] at same
    exact ⟨accounted, kept, by rw [same]; exact onDisk⟩
  case verifying =>
    intro current isPhase
    have phase := phase_beside beside isPhase nofun
    rw [phase] at active
    have same := sameTarget active.1
    rw [← active.2] at same
    rw [same]
    exact sole.verifying current phase
  case finished =>
    rw [beside.receipts]
    refine sole.finished.imp_right ?_
    rintro ⟨ended, receipt, content, receipts, accepts, present, whole,
      passed⟩
    refine
      ⟨List.sublist_nil.mp (ended ▸ unfinished_beside beside), receipt,
        content, beside.receipts.trans receipts, accepts, ?_, whole,
        passed⟩
    rw [beside.files _ (destPath_mem_paths applied)]
    exact present

end Beside

/-! ## Accepts -/

section Accepts

variable {applied other : AppliedAccept} {faults : Faults}
  {side next : RecvSide}

/-- The accept of an offer starts a receive of its destination. -/
theorem acceptEffect_only
    (effect : AcceptEffect applied faults side next) :
    AcceptEffect applied faults (side.only applied.destPath)
      (next.only applied.destPath) := by
  have own (offset : Nat) (usePart : Bool) (offer : Nat) :
      (applied.job offset usePart offer).isFor applied.destPath = true :=
    isFor_iff.mpr (applied.job_destPath offset usePart offer)
  cases effect with
  | small offer small =>
      simp only [RecvSide.only, List.filter_append, List.filter_cons,
        own, if_true, List.filter_nil]
      exact AcceptEffect.small offer small
  | fresh offer large =>
      simp only [RecvSide.only, List.filter_append, List.filter_cons,
        own, if_true, List.filter_nil]
      exact AcceptEffect.fresh offer large
  | keepPart offer existing large resume positive measured uncut =>
      simp only [RecvSide.only, Option.filter_some, own, if_true]
      exact
        AcceptEffect.keepPart offer existing large resume positive measured
          uncut
  | cutPart offer existing cut large resume positive measured isCut =>
      simp only [RecvSide.only, Option.filter_some, own, if_true]
      exact
        AcceptEffect.cutPart offer existing cut large resume positive
          measured isCut
  | keepDest offer large resume absent present measured =>
      simp only [RecvSide.only, Option.filter_some, own, if_true]
      exact
        AcceptEffect.keepDest offer large resume absent present measured

/-- The accept of an offer with other paths leaves the receives of this one
alone. -/
theorem acceptEffect_beside
    (apart : ∀ path ∈ other.paths, path ∉ applied.paths)
    (effect : AcceptEffect other faults side next) :
    (side.only applied.destPath).Beside applied.paths
      (next.only applied.destPath) := by
  have different : other.destPath ≠ applied.destPath := by
    intro same
    apply apart other.destPath (destPath_mem_paths other)
    rw [same]
    exact destPath_mem_paths applied
  have notOwn (offset : Nat) (usePart : Bool) (offer : Nat) :
      (other.job offset usePart offer).isFor applied.destPath = false := by
    apply isFor_eq_false
    rw [AppliedAccept.job_destPath]
    exact different
  have partApart (large : resumeThresholdBytes ≤ other.size) :
      ∀ path ∈ applied.paths, some other.partPath ≠ some path := by
    rintro path member same
    apply apart other.partPath
    · rw [paths_of_large large]
      exact List.mem_cons_self
    · rw [Option.some.inj same]
      exact member
  cases effect with
  | small offer small =>
      refine ⟨Or.inr rfl, ?_, Or.inl rfl, rfl, fun _ _ => rfl, Or.inr nofun⟩
      simp [RecvSide.only, List.filter_append, notOwn]
  | fresh offer large =>
      refine
        ⟨Or.inr rfl, ?_, Or.inl rfl, rfl, fun _ _ => rfl,
          Or.inr (partApart large)⟩
      simp [RecvSide.only, List.filter_append, notOwn]
  | keepPart offer existing large _ _ _ _ =>
      refine
        ⟨Or.inl ?_, rfl, Or.inl rfl, rfl, fun _ _ => rfl,
          Or.inr (partApart large)⟩
      simp [RecvSide.only, notOwn]
  | cutPart offer existing cut large _ _ _ succeeded =>
      refine
        ⟨Or.inl ?_, rfl, Or.inl rfl, rfl, ?_, Or.inr (partApart large)⟩
      · simp [RecvSide.only, notOwn]
      · intro path member
        obtain ⟨content, _, isCut⟩ :=
          FileStore.setLength_eq_some succeeded
        change cut path = side.files path
        rw [isCut]
        apply FileStore.put_other
        rintro rfl
        exact partApart large _ member rfl
  | keepDest offer large _ _ _ _ =>
      refine
        ⟨Or.inl ?_, rfl, Or.inl rfl, rfl, fun _ _ => rfl,
          Or.inr (partApart large)⟩
      simp [RecvSide.only, notOwn]

end Accepts

/-! ## The coordination loop -/

section Loop

variable {applied : AppliedAccept} {peer : Peer} {label : PeerLabel}
  {next : RecvSide} {job : RecvJob}

theorem only_waiting
    (waiting : peer.coordinator.pendingResumeRecv = some job)
    (own : job.destPath = applied.destPath) :
    (peer.only applied.destPath).coordinator.pendingResumeRecv =
      some job := by
  simp only [Peer.only, waiting, Option.filter_some, isFor_iff.mpr own,
    if_true]

/-- A step of the loop, seen from the receives of one accept. -/
theorem loopEffect_only
    (apart :
      ∀ other, peer.applied label = some other →
        ∀ path ∈ other.paths, path ∉ applied.paths)
    (spared :
      label.message = some .restartFromZero →
        ∀ job, peer.coordinator.pendingResumeRecv = some job →
          job.destPath ≠ applied.destPath →
            ∀ path ∈ applied.paths,
              peer.coordinator.currentPartPath ≠ some path)
    (effect : LoopEffect peer label next) :
    (peer.applied label = none ∧
        LoopEffect (peer.only applied.destPath) label
          (next.only applied.destPath)) ∨
      (peer.only applied.destPath).recvSide.Beside applied.paths
        (next.only applied.destPath) := by
  have notOwn {job : RecvJob} (other : job.destPath ≠ applied.destPath) :
      job.isFor applied.destPath = false := isFor_eq_false other
  cases effect with
  | quiet noAccept => exact Or.inl ⟨noAccept, LoopEffect.quiet noAccept⟩
  | accepted other faults next isApplied _ effect =>
      exact
        Or.inr (acceptEffect_beside (apart other isApplied) effect)
  | resumed job noAccept message waiting =>
      by_cases own : job.destPath = applied.destPath
      · refine Or.inl ⟨noAccept, ?_⟩
        simp only [RecvSide.only, Peer.recvSide, List.filter_append,
          List.filter_cons, isFor_iff.mpr own, if_true, List.filter_nil,
          Option.filter_none]
        exact
          @LoopEffect.resumed (peer.only applied.destPath) label job
            noAccept message (only_waiting waiting own)
      · refine
          Or.inr
            ⟨Or.inl rfl, ?_, Or.inl rfl, rfl, fun _ _ => rfl, Or.inl rfl⟩
        simp [RecvSide.only, Peer.only, Peer.recvSide, notOwn own]
  | restarted job noAccept message waiting =>
      by_cases own : job.destPath = applied.destPath
      · refine Or.inl ⟨noAccept, ?_⟩
        have isFor :
            RecvJob.isFor applied.destPath { job with resumeOffset := 0 } =
              true := isFor_iff.mpr own
        simp only [RecvSide.only, Peer.recvSide, List.filter_append,
          List.filter_cons, isFor, if_true, List.filter_nil,
          Option.filter_none]
        exact
          @LoopEffect.restarted (peer.only applied.destPath) label job
            noAccept message (only_waiting waiting own)
      · have isOther :
            RecvJob.isFor applied.destPath { job with resumeOffset := 0 } =
              false := isFor_eq_false own
        refine
          Or.inr
            ⟨Or.inl rfl, ?_, Or.inl rfl, rfl, fun _ _ => rfl, Or.inl rfl⟩
        simp [RecvSide.only, Peer.only, Peer.recvSide, isOther]
  | recreated job partPath created noAccept message waiting isPart
      succeeded =>
      by_cases own : job.destPath = applied.destPath
      · refine Or.inl ⟨noAccept, ?_⟩
        have isFor :
            RecvJob.isFor applied.destPath { job with resumeOffset := 0 } =
              true := isFor_iff.mpr own
        simp only [RecvSide.only, Peer.recvSide, List.filter_append,
          List.filter_cons, isFor, if_true, List.filter_nil,
          Option.filter_none]
        exact
          @LoopEffect.recreated (peer.only applied.destPath) label job
            partPath created noAccept message (only_waiting waiting own)
            isPart succeeded
      · have isOther :
            RecvJob.isFor applied.destPath { job with resumeOffset := 0 } =
              false := isFor_eq_false own
        refine
          Or.inr ⟨Or.inl rfl, ?_, Or.inl rfl, rfl, ?_, Or.inl rfl⟩
        · simp [RecvSide.only, Peer.only, Peer.recvSide, isOther]
        · intro path member
          change created path = peer.files path
          rw [(FileStore.create_eq_some succeeded).1]
          apply FileStore.put_other
          rintro rfl
          exact spared message job waiting own _ member isPart

end Loop

/-! ## The receive task -/

/-- The receive whose turn it is in the task. -/
def Peer.turn (peer : Peer) : Option RecvJob :=
  peer.receiver.job?.or peer.recvQueue.head?

section Task

variable {destPath : UnixPath} {peer next : Peer} {label : RecvLabel}

theorem turn_of_phase
    {job : RecvJob} (isJob : peer.receiver.job? = some job) :
    peer.turn = some job := by
  rw [Peer.turn, isJob]
  rfl

/-- The phase is seen when it is the turn of the destination. -/
theorem only_receiver
    (own : ∀ job, peer.turn = some job → job.destPath = destPath) :
    (peer.only destPath).receiver = peer.receiver :=
  only_phase fun job isJob => own job (turn_of_phase isJob)

theorem only_withReceiving
    {current : Receiving} (own : current.job.destPath = destPath) :
    (peer.withReceiving current).only destPath =
      (peer.only destPath).withReceiving current := by
  have seen :
      (RecvPhase.receiving current).only destPath = .receiving current :=
    only_phase fun job isJob => by
      rw [← Option.some.inj isJob]
      exact own
  simp only [Peer.only, Peer.withReceiving, seen]

theorem only_failReceive (peer : Peer) (status : FileTransferStatus) :
    (peer.failReceive status).only destPath =
      (peer.only destPath).failReceive status :=
  rfl

theorem only_completeReceive
    {verifying : Verifying} (own : verifying.job.destPath = destPath)
    (expectedHash : String) :
    (peer.completeReceive verifying expectedHash).only destPath =
      (peer.only destPath).completeReceive verifying expectedHash := by
  have isFor : verifying.job.isFor destPath = true := isFor_iff.mpr own
  simp only [Peer.only, Peer.completeReceive, Peer.emit, Peer.send,
    List.filter_append, List.filter_cons, isFor, if_true, List.filter_nil]
  rfl

/-- A step of the task for the destination is a step of the view. -/
theorem taskEffect_only
    (own : ∀ job, peer.turn = some job → job.destPath = destPath)
    (effect : TaskEffect label peer next) :
    TaskEffect label (peer.only destPath) (next.only destPath) := by
  have seen := only_receiver own
  have ownJob {job : RecvJob} (isJob : peer.receiver.job? = some job) :
      job.destPath = destPath := own job (turn_of_phase isJob)
  cases effect with
  | started job rest idle queued =>
      have isFor : job.isFor destPath = true := by
        apply isFor_iff.mpr (own job _)
        rw [Peer.turn, idle, queued]
        rfl
      have opening :
          (RecvPhase.opening job).only destPath = .opening job :=
        only_phase fun other isJob => by
          rw [← Option.some.inj isJob]
          exact isFor_iff.mp isFor
      have seenQueue :
          (peer.only destPath).recvQueue =
            job :: rest.filter (·.isFor destPath) := by
        simp only [Peer.only, queued, List.filter_cons, isFor, if_true]
      have started :=
        @TaskEffect.started label (peer.only destPath) job _
          (seen.trans idle) seenQueue
      simpa only [Peer.only, opening] using started
  | refused job files opening made =>
      rw [only_failReceive]
      exact
        @TaskEffect.refused label (peer.only destPath) job files
          (seen.trans opening) made
  | seekFailed job files opened opening made isOpened =>
      rw [only_failReceive]
      exact
        @TaskEffect.seekFailed label (peer.only destPath) job files opened
          (seen.trans opening) made isOpened
  | opened job files opened opening made isOpened =>
      rw [only_withReceiving]
      · exact
          @TaskEffect.opened label (peer.only destPath) job files opened
            (seen.trans opening) made isOpened
      · exact ownJob (congrArg RecvPhase.job? opening)
  | received current chunk loopEnd isRead phase noEnd fits short nonempty
      notDone =>
      rw [only_withReceiving]
      · exact
          @TaskEffect.received label (peer.only destPath) current chunk
            loopEnd isRead (seen.trans phase) noEnd fits short nonempty
            notDone
      · exact ownJob (congrArg RecvPhase.job? phase)
  | loopFailed current phase =>
      rw [only_withReceiving]
      · exact
          @TaskEffect.loopFailed label (peer.only destPath) current
            (seen.trans phase)
      · exact ownJob (congrArg RecvPhase.job? phase)
  | loopEnded current phase noEnd complete =>
      rw [only_withReceiving]
      · exact
          @TaskEffect.loopEnded label (peer.only destPath) current
            (seen.trans phase) noEnd complete
      · exact ownJob (congrArg RecvPhase.job? phase)
  | storedChunk current chunk rest phase alive queued =>
      rw [only_withReceiving]
      · exact
          @TaskEffect.storedChunk label (peer.only destPath) current chunk
            rest (seen.trans phase) alive queued
      · exact ownJob (congrArg RecvPhase.job? phase)
  | writerFailed current chunk rest length phase queued =>
      rw [only_withReceiving]
      · exact
          @TaskEffect.writerFailed label (peer.only destPath) current chunk
            rest length (seen.trans phase) queued
      · exact ownJob (congrArg RecvPhase.job? phase)
  | reported current =>
      exact @TaskEffect.reported label (peer.only destPath) current
  | closed current flushFails rehashFails isClose phase ended alive
      drained =>
      have verifying :
          (RecvPhase.verifying
              (peer.verifyingOf current rehashFails)).only destPath =
            .verifying (peer.verifyingOf current rehashFails) :=
        only_phase fun other isJob => by
          rw [← Option.some.inj isJob]
          exact ownJob (congrArg RecvPhase.job? phase)
      have closed :=
        @TaskEffect.closed label (peer.only destPath) current flushFails
          rehashFails isClose (seen.trans phase) ended alive drained
      simp only [Peer.only, verifying]
      exact closed
  | gaveUp current phase =>
      rw [only_failReceive]
      exact
        @TaskEffect.gaveUp label (peer.only destPath) current
          (seen.trans phase)
  | rejected verifying rest phase =>
      rw [only_failReceive]
      exact
        @TaskEffect.rejected label (peer.only destPath) verifying rest
          (seen.trans phase)
  | completed verifying expectedHash rest phase isNext passed direct =>
      rw [only_completeReceive
        (ownJob (congrArg RecvPhase.job? phase))]
      exact
        @TaskEffect.completed label (peer.only destPath) verifying
          expectedHash rest (seen.trans phase) isNext passed direct
  | committed verifying expectedHash rest renamed phase isNext passed
      staged moved =>
      rw [only_completeReceive
        (ownJob (congrArg RecvPhase.job? phase))]
      exact
        @TaskEffect.committed label (peer.only destPath) verifying
          expectedHash rest renamed (seen.trans phase) isNext passed staged
          moved
  | abandoned verifying phase =>
      exact
        @TaskEffect.abandoned label (peer.only destPath) verifying
          (seen.trans phase)

theorem recvStep_opening
    {job : RecvJob}
    (opening : peer.receiver = .opening job)
    (stepped : peer.recvStep label = some next) :
    ∃ outcome, label = .openTarget outcome := by
  unfold Peer.recvStep at stepped
  rw [opening] at stepped
  cases label with
  | openTarget outcome => exact ⟨outcome, rfl⟩
  | _ => cases stepped

/-- What a step of the task writes: paths of the receive whose turn it is, and
directories above its destination. -/
theorem taskEffect_elsewhere
    {path : UnixPath}
    (targets : peer.receiver.Holds fun _ => True)
    (elsewhere :
      ∀ job, peer.receiver.job? = some job → path ∉ job.paths)
    (unmade :
      ∀ job made, peer.receiver = .opening job →
        peer.files.ensureDirectories job.ancestors = some made →
          made path = peer.files path)
    (effect : TaskEffect label peer next) :
    next.files path = peer.files path := by
  have notTarget
      {job : RecvJob} (active : peer.receiver.job? = some job) :
      path ≠ job.targetWritePath := by
    intro isTarget
    apply elsewhere job active
    rw [RecvJob.paths, isTarget]
    exact List.mem_cons_self
  have notDest
      {job : RecvJob} (active : peer.receiver.job? = some job) :
      path ≠ job.destPath := by
    intro isDest
    apply elsewhere job active
    rw [RecvJob.paths, isDest]
    exact List.mem_cons_of_mem _ List.mem_cons_self
  have writes
      {current : Receiving} (phase : peer.receiver = .receiving current)
      (bytes : List UInt8) :
      (peer.storeBytes current bytes).files path = peer.files path := by
    have active := congrArg RecvPhase.job? phase
    rw [phase] at targets
    have different : path ≠ current.targetWritePath := by
      rw [targets.2]
      exact notTarget active
    exact FileStore.writeAt_other _ _ _ different
  cases effect with
  | refused job files opening ensured =>
      rcases ensured with rfl | ensured
      · rfl
      · exact unmade job files opening ensured
  | seekFailed job files opened opening ensured isOpened =>
      have active := congrArg RecvPhase.job? opening
      exact
        (openTarget_other isOpened (notTarget active)).trans
          (unmade job files opening ensured)
  | opened job files opened opening ensured isOpened =>
      have active := congrArg RecvPhase.job? opening
      exact
        (openTarget_other isOpened (notTarget active)).trans
          (unmade job files opening ensured)
  | storedChunk current chunk rest phase _ _ => exact writes phase chunk
  | writerFailed current chunk rest length phase _ =>
      exact writes phase (chunk.take length)
  | committed verifying expectedHash rest renamed phase _ _ _ moved =>
      have active := congrArg RecvPhase.job? phase
      rw [phase] at targets
      obtain ⟨moved, _, isRenamed, _⟩ := FileStore.rename_eq_some moved
      have notSource : path ≠ verifying.targetWritePath := by
        rw [targets.2]
        exact notTarget active
      change renamed path = peer.files path
      rw [isRenamed, FileStore.put_other _ _ (notDest active),
        FileStore.remove_other _ notSource]
  | _ => rfl

/-- A step of the active receive for another destination: neither the phase
before nor the one after is seen. -/
theorem beside_of_active
    {applied : AppliedAccept} {current : RecvJob} {peer after : Peer}
    (isJob : peer.receiver.job? = some current)
    (notOwn : current.destPath ≠ applied.destPath)
    (isNext :
      after.receiver.job? = some current ∨ after.receiver = .idle ∨
        after.receiver = .stopped)
    (coordinator : after.coordinator = peer.coordinator)
    (queue : after.recvQueue = peer.recvQueue)
    (receipts :
      after.receipts.filter (·.verified.job.isFor applied.destPath) =
        peer.receipts.filter (·.verified.job.isFor applied.destPath))
    (untouched :
      ∀ path ∈ applied.paths, after.files path = peer.files path) :
    (peer.only applied.destPath).recvSide.Beside applied.paths
      (after.only applied.destPath).recvSide := by
  have unseen := only_phase_other isJob notOwn
  refine ⟨Or.inr ?_, ?_, ?_, receipts, untouched, Or.inl ?_⟩
  · simp only [Peer.recvSide, Peer.only, coordinator]
  · simp only [Peer.recvSide, Peer.only, queue]
  · simp only [Peer.recvSide, Peer.only, unseen]
    obtain same | idle | stopped := isNext
    · exact Or.inl (only_phase_other same notOwn)
    · exact Or.inl (by rw [idle]; rfl)
    · exact Or.inr ⟨trivial, by rw [stopped]; rfl⟩
  · simp only [Peer.recvSide, Peer.only, coordinator]

/-- A step of the task for another receive. -/
theorem taskEffect_beside
    {applied : AppliedAccept} {job : RecvJob}
    (isTurn : peer.turn = some job)
    (other : job.destPath ≠ applied.destPath)
    (untouched :
      ∀ path ∈ applied.paths, next.files path = peer.files path)
    (effect : TaskEffect label peer next) :
    (peer.only applied.destPath).recvSide.Beside applied.paths
      (next.only applied.destPath).recvSide := by
  have notOwn {current : RecvJob}
      (isJob : peer.receiver.job? = some current) :
      current.destPath ≠ applied.destPath := by
    rw [turn_of_phase isJob] at isTurn
    rw [Option.some.inj isTurn]
    exact other
  have active {current : RecvJob} {after : Peer}
      (isJob : peer.receiver.job? = some current) :=
    @beside_of_active applied current peer after isJob (notOwn isJob)
  have unseenReceipt {verifying : Verifying} (hash : String)
      (isJob : peer.receiver.job? = some verifying.job) :
      (peer.receipts ++ [Receipt.mk verifying hash]).filter
          (·.verified.job.isFor applied.destPath) =
        peer.receipts.filter
          (·.verified.job.isFor applied.destPath) := by
    simp [List.filter_append, isFor_eq_false (notOwn isJob)]
  cases effect with
  | started current rest idle queued =>
      have isOther : current.isFor applied.destPath = false := by
        rw [Peer.turn, idle, queued] at isTurn
        rw [Option.some.inj isTurn]
        exact isFor_eq_false other
      have unseen :
          (RecvPhase.opening current).only applied.destPath = .idle := by
        rw [RecvPhase.only, RecvPhase.job?, Option.all_some, isOther]
        rfl
      refine
        ⟨Or.inr rfl, ?_, Or.inl ?_, rfl, fun _ _ => rfl, Or.inl rfl⟩
      · simp [Peer.recvSide, Peer.only, queued, isOther]
      · simp only [Peer.recvSide, Peer.only, unseen, idle]
        rfl
  | refused current files opening _ =>
      exact
        active (congrArg RecvPhase.job? opening) (Or.inr (Or.inr rfl)) rfl
          rfl rfl untouched
  | seekFailed current files opened opening _ _ =>
      exact
        active (congrArg RecvPhase.job? opening) (Or.inr (Or.inr rfl)) rfl
          rfl rfl untouched
  | opened current files opened opening _ _ =>
      exact
        active (congrArg RecvPhase.job? opening) (Or.inl rfl) rfl rfl rfl
          untouched
  | reported current =>
      exact
        ⟨Or.inr rfl, rfl, Or.inl rfl, rfl, fun _ _ => rfl, Or.inl rfl⟩
  | gaveUp current phase =>
      exact
        active (congrArg RecvPhase.job? phase) (Or.inr (Or.inr rfl)) rfl rfl
          rfl untouched
  | rejected verifying rest phase =>
      exact
        active (congrArg RecvPhase.job? phase) (Or.inr (Or.inr rfl)) rfl rfl
          rfl untouched
  | completed verifying hash rest phase _ _ _ =>
      have isJob := congrArg RecvPhase.job? phase
      exact
        active isJob (Or.inr (Or.inl rfl)) rfl rfl
          (unseenReceipt hash isJob) untouched
  | committed verifying hash rest renamed phase _ _ _ _ =>
      have isJob := congrArg RecvPhase.job? phase
      exact
        active isJob (Or.inr (Or.inl rfl)) rfl rfl
          (unseenReceipt hash isJob) untouched
  | abandoned verifying phase =>
      exact
        active (congrArg RecvPhase.job? phase) (Or.inr (Or.inl rfl)) rfl rfl
          rfl untouched
  | received current chunk loopEnd _ phase _ _ _ _ _ =>
      exact
        active (congrArg RecvPhase.job? phase) (Or.inl rfl) rfl rfl rfl
          untouched
  | loopFailed current phase =>
      exact
        active (congrArg RecvPhase.job? phase) (Or.inl rfl) rfl rfl rfl
          untouched
  | loopEnded current phase _ _ =>
      exact
        active (congrArg RecvPhase.job? phase) (Or.inl rfl) rfl rfl rfl
          untouched
  | storedChunk current chunk rest phase _ _ =>
      exact
        active (congrArg RecvPhase.job? phase) (Or.inl rfl) rfl rfl rfl
          untouched
  | writerFailed current chunk rest length phase _ =>
      exact
        active (congrArg RecvPhase.job? phase) (Or.inl rfl) rfl rfl rfl
          untouched
  | closed current flushFails rehashFails _ phase _ _ _ =>
      exact
        active (congrArg RecvPhase.job? phase) (Or.inl rfl) rfl rfl rfl
          untouched

end Task

end Quiczilla
