import Quiczilla.SingleExchange

/-!
# The course of one exchange

An accept queues a receive from byte zero, or has one wait with what it offers
to keep.  Which of the two is received is settled by the reply, and what that
receive takes from the stream is all that is ever taken.
-/

namespace Quiczilla

open Foundation

/-! ## What is kept -/

/-- The job keeps a staging file, or else a finished file, as `handle_accept`
offers it. -/
inductive AppliedAccept.Keeps
    (applied : AppliedAccept) (before : Files) (job : RecvJob) : Prop
  | part :
      job.targetWritePath = applied.partPath →
      job.resumeOffset =
        alignedOffset ((before.length? applied.partPath).getD 0)
          applied.size →
      0 < job.resumeOffset →
      AppliedAccept.Keeps applied before job
  | dest :
      before applied.partPath = none →
      (before.length? applied.destPath).getD 0 = applied.size →
      job.targetWritePath = applied.destPath →
      job.resumeOffset = applied.size →
      0 < job.resumeOffset →
      AppliedAccept.Keeps applied before job

theorem AppliedAccept.Keeps.positive
    {applied : AppliedAccept} {before : Files} {job : RecvJob}
    (keeps : applied.Keeps before job) : 0 < job.resumeOffset := by
  cases keeps with
  | part isTarget isOffset positive => exact positive
  | dest noPart measured isTarget isOffset positive => exact positive

/-- An accept queues a receive from byte zero, or has one wait to resume. -/
theorem acceptEffect_job
    {applied : AppliedAccept} {faults : Faults} {side next : RecvSide}
    (effect : AcceptEffect applied faults side next) :
    (next.pendingResumeRecv = side.pendingResumeRecv ∧
        ∃ job, next.recvQueue = side.recvQueue ++ [job] ∧
          job.resumeOffset = 0) ∨
      (next.recvQueue = side.recvQueue ∧
        ∃ job, next.pendingResumeRecv = some job ∧
          applied.Keeps side.files job) := by
  cases effect with
  | small offer small => exact Or.inl ⟨rfl, _, rfl, rfl⟩
  | fresh offer large => exact Or.inl ⟨rfl, _, rfl, rfl⟩
  | keepPart offer existing large resume positive measured uncut =>
      refine Or.inr ⟨rfl, _, rfl, ?_⟩
      refine AppliedAccept.Keeps.part (job_target_part applied _ _) ?_ positive
      rw [measured]
      rfl
  | cutPart offer existing cut large resume positive measured succeeded =>
      refine Or.inr ⟨rfl, _, rfl, ?_⟩
      refine AppliedAccept.Keeps.part (job_target_part applied _ _) ?_ positive
      rw [measured]
      rfl
  | keepDest offer large resume noPart present measured =>
      exact
        Or.inr
          ⟨rfl, _, rfl,
            AppliedAccept.Keeps.dest noPart measured
              (job_target_dest applied _ _) rfl
              (Nat.lt_of_lt_of_le resumeThresholdBytes_pos large)⟩

theorem acceptEffect_task
    {applied : AppliedAccept} {faults : Faults} {side next : RecvSide}
    (effect : AcceptEffect applied faults side next) :
    next.receiver = side.receiver ∧ next.receipts = side.receipts := by
  cases effect <;> exact ⟨rfl, rfl⟩

/-! ## Jobs that are settled -/

/-- The receives whose offset is no longer open: queued, active or
completed. -/
def RecvSide.settled (side : RecvSide) : List RecvJob :=
  side.recvQueue ++ side.receiver.job?.toList ++
    side.receipts.map fun receipt => receipt.verified.job

/-- The receive task settles nothing. -/
theorem taskEffect_settled
    {label : RecvLabel} {peer next : Peer}
    (effect : TaskEffect label peer next) :
    ∀ job ∈ next.recvSide.settled, job ∈ peer.recvSide.settled := by
  have stays {phase : RecvPhase} {side : RecvSide}
      (isPhase : peer.receiver = phase)
      (receiver :
        side.receiver.job? = none ∨ side.receiver.job? = phase.job?)
      (queue : side.recvQueue = peer.recvQueue)
      (receipts : side.receipts = peer.receipts) :
      ∀ job ∈ side.settled, job ∈ peer.recvSide.settled := by
    intro job member
    have isSettled :
        peer.recvSide.settled =
          peer.recvQueue ++ phase.job?.toList ++
            peer.receipts.map fun receipt => receipt.verified.job := by
      rw [← isPhase]
      rfl
    rw [RecvSide.settled, queue, receipts] at member
    rw [isSettled]
    obtain none | same := receiver
    · rw [none] at member
      simp only [Option.toList_none, List.append_nil, List.mem_append]
        at member ⊢
      exact member.imp_left Or.inl
    · rw [same] at member
      exact member
  have completes {verifying : Verifying} {expectedHash : String}
      {side : RecvSide} (isPhase : peer.receiver = .verifying verifying)
      (idle : side.receiver = .idle)
      (queue : side.recvQueue = peer.recvQueue)
      (receipts :
        side.receipts = peer.receipts ++ [⟨verifying, expectedHash⟩]) :
      ∀ job ∈ side.settled, job ∈ peer.recvSide.settled := by
    intro job member
    have isSettled :
        peer.recvSide.settled =
          peer.recvQueue ++ [verifying.job] ++
            peer.receipts.map fun receipt => receipt.verified.job := by
      rw [RecvSide.settled]
      change peer.recvQueue ++ peer.receiver.job?.toList ++ _ = _
      rw [isPhase]
      rfl
    rw [RecvSide.settled, idle, queue, receipts] at member
    rw [isSettled]
    simp only [RecvPhase.job?, Option.toList_none, List.append_nil,
      List.map_append, List.map_cons, List.map_nil, List.mem_append,
      List.mem_singleton] at member ⊢
    obtain isQueued | isReceipt | isLast := member
    · exact Or.inl (Or.inl isQueued)
    · exact Or.inr isReceipt
    · exact Or.inl (Or.inr isLast)
  cases effect with
  | started other rest isIdle queued =>
      intro job member
      have isSettled :
          peer.recvSide.settled =
            other :: rest ++ [] ++
              peer.receipts.map fun receipt => receipt.verified.job := by
        rw [RecvSide.settled]
        change peer.recvQueue ++ peer.receiver.job?.toList ++ _ = _
        rw [isIdle, queued]
        rfl
      change job ∈ rest ++ [other] ++ _ at member
      rw [isSettled]
      simp only [List.append_nil, List.cons_append, List.mem_append,
        List.mem_cons, List.not_mem_nil, or_false] at member ⊢
      obtain (isRest | isOther) | isReceipt := member
      · exact Or.inr (Or.inl isRest)
      · exact Or.inl isOther
      · exact Or.inr (Or.inr isReceipt)
  | refused other files isOpening => exact stays isOpening (Or.inl rfl) rfl rfl
  | seekFailed other files opened isOpening =>
      exact stays isOpening (Or.inl rfl) rfl rfl
  | opened other files opened isOpening =>
      exact stays isOpening (Or.inr rfl) rfl rfl
  | received current chunk loopEnd isLabel phase =>
      exact stays phase (Or.inr rfl) rfl rfl
  | loopFailed current phase => exact stays phase (Or.inr rfl) rfl rfl
  | loopEnded current phase => exact stays phase (Or.inr rfl) rfl rfl
  | storedChunk current chunk rest phase =>
      exact stays phase (Or.inr rfl) rfl rfl
  | writerFailed current chunk rest length phase =>
      exact stays phase (Or.inr rfl) rfl rfl
  | reported current => exact fun _ member => member
  | closed current flushFails rehashFails isLabel phase =>
      exact stays phase (Or.inr rfl) rfl rfl
  | gaveUp current phase => exact stays phase (Or.inl rfl) rfl rfl
  | rejected current rest phase => exact stays phase (Or.inl rfl) rfl rfl
  | completed current expectedHash rest phase =>
      exact completes phase rfl rfl rfl
  | committed current expectedHash rest renamed phase =>
      exact completes phase rfl rfl rfl
  | abandoned current phase => exact stays phase (Or.inl rfl) rfl rfl

/-! ## Bytes that are taken -/

/-- What the task has taken for its job. -/
def RecvPhase.taken? : RecvPhase → Option (List UInt8)
  | .opening _ => some []
  | .receiving current => some (current.stored ++ current.chunks.flatten)
  | .verifying current => some current.stored
  | _ => none

/-- What the sole receive has taken from the stream. -/
inductive RecvSide.Took (side : RecvSide) : List UInt8 → Prop
  | waiting (job : RecvJob) :
      side.pendingResumeRecv = some job → RecvSide.Took side []
  | queued (job : RecvJob) :
      job ∈ side.recvQueue → RecvSide.Took side []
  | active (bytes : List UInt8) :
      side.receiver.taken? = some bytes → RecvSide.Took side bytes
  | completed (receipt : Receipt) :
      receipt ∈ side.receipts →
      RecvSide.Took side receipt.verified.stored

/-- A step that takes nothing from the stream. -/
theorem taskEffect_took
    {label : RecvLabel} {peer next : Peer}
    (effect : TaskEffect label peer next)
    (notReceive : ∀ chunk, label ≠ .receive chunk) :
    ∀ bytes, next.recvSide.Took bytes → peer.recvSide.Took bytes := by
  -- What has been taken in the old phase, and by earlier receives.
  have isTaken {phase : RecvPhase} {bytes : List UInt8}
      (isPhase : peer.receiver = phase)
      (taken : phase.taken? = some bytes) : peer.recvSide.Took bytes := by
    rw [← isPhase] at taken
    exact RecvSide.Took.active bytes taken
  have stays {side : RecvSide}
      (waiting :
        side.pendingResumeRecv = peer.coordinator.pendingResumeRecv)
      (queue : ∀ job ∈ side.recvQueue, job ∈ peer.recvQueue)
      (active :
        ∀ bytes, side.receiver.taken? = some bytes →
          peer.recvSide.Took bytes)
      (completed :
        ∀ receipt ∈ side.receipts,
          peer.recvSide.Took receipt.verified.stored) :
      ∀ bytes, side.Took bytes → peer.recvSide.Took bytes := by
    intro bytes took
    cases took with
    | waiting job waits =>
        exact RecvSide.Took.waiting job (waiting.symm.trans waits)
    | queued job member => exact RecvSide.Took.queued job (queue job member)
    | active bytes taken => exact active bytes taken
    | completed receipt member => exact completed receipt member
  have same : ∀ job ∈ peer.recvQueue, job ∈ peer.recvQueue :=
    fun job member => member
  have earlier :
      ∀ receipt ∈ peer.receipts,
        peer.recvSide.Took receipt.verified.stored :=
    fun receipt member => RecvSide.Took.completed receipt member
  have added {verifying : Verifying} (expectedHash : String)
      (isPhase : peer.receiver = .verifying verifying) :
      ∀ receipt ∈ peer.receipts ++ [⟨verifying, expectedHash⟩],
        peer.recvSide.Took receipt.verified.stored := by
    intro receipt member
    obtain before | last := List.mem_append.mp member
    · exact earlier receipt before
    · rw [List.mem_singleton.mp last]
      exact isTaken isPhase rfl
  cases effect with
  | started job rest isIdle queued =>
      refine stays rfl ?_ ?_ earlier
      · intro other member
        rw [queued]
        exact List.mem_cons_of_mem _ member
      · rintro bytes ⟨⟩
        refine RecvSide.Took.queued job ?_
        change job ∈ peer.recvQueue
        rw [queued]
        exact List.mem_cons_self
  | refused job files isOpening => exact stays rfl same nofun earlier
  | seekFailed job files opened isOpening =>
      exact stays rfl same nofun earlier
  | opened job files opened isOpening =>
      refine stays rfl same ?_ earlier
      rintro bytes ⟨⟩
      exact isTaken isOpening rfl
  | received current chunk loopEnd isLabel =>
      exact absurd isLabel (notReceive chunk)
  | loopFailed current phase =>
      refine stays rfl same ?_ earlier
      rintro bytes ⟨⟩
      exact isTaken phase rfl
  | loopEnded current phase =>
      refine stays rfl same ?_ earlier
      rintro bytes ⟨⟩
      exact isTaken phase rfl
  | storedChunk current chunk rest phase alive queued =>
      refine stays rfl same ?_ earlier
      rintro bytes ⟨⟩
      refine isTaken phase ?_
      rw [RecvPhase.taken?, queued, List.flatten_cons, List.append_assoc]
  | writerFailed current chunk rest length phase =>
      refine stays rfl same ?_ earlier
      rintro bytes ⟨⟩
      exact isTaken phase rfl
  | reported current => exact fun bytes took => took
  | closed current flushFails rehashFails isLabel phase ended alive
      drained =>
      refine stays rfl same ?_ earlier
      rintro bytes ⟨⟩
      refine isTaken phase ?_
      rw [RecvPhase.taken?, drained, List.flatten_nil, List.append_nil]
      rfl
  | gaveUp current phase => exact stays rfl same nofun earlier
  | rejected current rest phase => exact stays rfl same nofun earlier
  | completed current expectedHash rest phase =>
      exact stays rfl same nofun (added expectedHash phase)
  | committed current expectedHash rest renamed phase =>
      exact stays rfl same nofun (added expectedHash phase)
  | abandoned current phase => exact stays rfl same nofun earlier

/-- The sole receive takes a chunk behind what it has taken. -/
theorem receive_took
    {before : Files} {applied : AppliedAccept} {peer next : Peer}
    {chunk : List UInt8}
    (sole : peer.recvSide.Sole before applied [])
    (stepped : peer.recvStep (.receive chunk) = some next) :
    ∀ bytes, next.recvSide.Took bytes →
      ∃ earlier, peer.recvSide.Took earlier ∧ bytes = earlier ++ chunk := by
  unfold Peer.recvStep at stepped
  cases phase : peer.receiver with
  | receiving current =>
      rw [phase] at stepped
      simp only [Peer.receive] at stepped
      split at stepped <;> cases stepped
      obtain ⟨noneWaiting, noneQueued, noReceipts⟩ :=
        sole.active (congrArg RecvPhase.job? phase)
      intro bytes took
      cases took with
      | waiting job waits =>
          have waits : peer.recvSide.pendingResumeRecv = some job := waits
          rw [noneWaiting] at waits
          cases waits
      | queued job member =>
          have member : job ∈ peer.recvSide.recvQueue := member
          rw [noneQueued] at member
          cases member
      | active bytes taken =>
          cases taken
          refine
            ⟨current.stored ++ current.chunks.flatten,
              RecvSide.Took.active _ ?_, ?_⟩
          · change peer.receiver.taken? = _
            rw [phase]
            rfl
          · simp
      | completed receipt member =>
          have member : receipt ∈ peer.recvSide.receipts := member
          rw [noReceipts] at member
          cases member
  | _ =>
      rw [phase] at stepped
      cases stepped

/-- The loop takes nothing from the stream. -/
theorem loopEffect_took
    {peer : Peer} {label : PeerLabel} {next : RecvSide}
    (noAccept : peer.applied label = none)
    (effect : LoopEffect peer label next) :
    ∀ bytes, next.Took bytes → peer.recvSide.Took bytes := by
  -- A receive that waited to resume is queued.
  have queues {job queuedJob : RecvJob} {side : RecvSide}
      (waits : peer.coordinator.pendingResumeRecv = some job)
      (waiting : side.pendingResumeRecv = none)
      (queue : side.recvQueue = peer.recvQueue ++ [queuedJob])
      (receiver : side.receiver = peer.receiver)
      (receipts : side.receipts = peer.receipts) :
      ∀ bytes, side.Took bytes → peer.recvSide.Took bytes := by
    intro bytes took
    cases took with
    | waiting other isWaiting =>
        rw [waiting] at isWaiting
        cases isWaiting
    | queued other member => exact RecvSide.Took.waiting job waits
    | active bytes taken =>
        rw [receiver] at taken
        exact RecvSide.Took.active bytes taken
    | completed receipt member =>
        rw [receipts] at member
        exact RecvSide.Took.completed receipt member
  cases effect with
  | quiet _ => exact fun bytes took => took
  | accepted other faults next isApplied _ _ =>
      rw [noAccept] at isApplied
      cases isApplied
  | resumed job _ _ waits => exact queues waits rfl rfl rfl rfl
  | restarted job _ _ waits => exact queues waits rfl rfl rfl rfl
  | recreated job partPath created _ _ waits _ _ =>
      exact queues waits rfl rfl rfl rfl

/-! ## Which way the handshake goes -/

def PeerLabel.notice? : PeerLabel → Option Notice
  | .control letter _ => letter.notice?
  | _ => none

theorem notice?_resumeOk
    {label : PeerLabel} :
    label.notice? = some .resumeOk ↔
      label.message = some .resumeOk := by
  cases label with
  | control letter faults =>
      obtain ⟨message, offer⟩ := letter
      cases message <;>
        simp [PeerLabel.notice?, PeerLabel.message, Letter.notice?]
  | _ => simp [PeerLabel.notice?, PeerLabel.message]

theorem notice?_restart
    {label : PeerLabel} :
    (∃ told, label.notice? = some (.restart told)) ↔
      label.message = some .restartFromZero := by
  cases label with
  | control letter faults =>
      obtain ⟨message, offer⟩ := letter
      cases message <;>
        simp [PeerLabel.notice?, PeerLabel.message, Letter.notice?]
  | _ => simp [PeerLabel.notice?, PeerLabel.message]

/-- `READY` is under way or has been taken. -/
def Link.Readied (link : Link) : Prop :=
  .ready ∈ link.left.handled ∨
    ∃ number, .ready number ∈ link.right.answers

/-- A message that arrives was under way. -/
theorem readied_of_control
    {link : Link} {letter : Letter} {rest : List Letter} {left : Peer}
    {faults : Faults} (arrived : link.right.outbox = letter :: rest)
    (taken : peerStep link.left (.control letter faults) = some left)
    (readied : Link.Readied ⟨left, link.right.withOutbox rest⟩) :
    link.Readied := by
  have handled : left.handled = link.left.handled ++ [letter.message] :=
    loopStep_handled rfl taken
  have answers := answers_of_outbox arrived
  obtain isHandled | ⟨number, isAnswer⟩ := readied
  · rw [handled] at isHandled
    obtain earlier | now := List.mem_append.mp isHandled
    · exact Or.inl earlier
    · refine Or.inr ⟨letter.offer, ?_⟩
      have isReady : letter.answer? = some (.ready letter.offer) := by
        rw [Letter.answer?, ← List.mem_singleton.mp now]
      rw [answers, isReady]
      exact List.mem_cons_self
  · refine Or.inr ⟨number, ?_⟩
    rw [answers]
    exact List.mem_append_right _ isAnswer

/-- The receive starts from byte zero; or it waits, and then it resumes what is
kept. -/
inductive Link.Course (keeps : RecvJob → Prop) (link : Link) : Prop
  | fromZero :
      link.right.coordinator.pendingResumeRecv = none →
      .resumeOk ∉ link.right.handled →
      (∀ job ∈ link.right.recvSide.settled, job.resumeOffset = 0) →
      Link.Course keeps link
  | waiting (job : RecvJob) :
      link.right.coordinator.pendingResumeRecv = some job →
      keeps job →
      ¬link.Readied →
      .resumeOk ∉ link.right.handled →
      .restartFromZero ∉ link.right.handled →
      Link.Course keeps link
  | resumed :
      link.right.coordinator.pendingResumeRecv = none →
      ¬link.Readied →
      .restartFromZero ∉ link.right.handled →
      .resumeOk ∈ link.right.handled →
      (∀ job ∈ link.right.recvSide.settled, keeps job) →
      Link.Course keeps link

/-- Nothing that the course is about has changed. -/
theorem Link.Course.of_same
    {keeps : RecvJob → Prop} {link next : Link}
    (course : link.Course keeps)
    (waiting :
      next.right.coordinator.pendingResumeRecv =
        link.right.coordinator.pendingResumeRecv)
    (settled :
      ∀ job ∈ next.right.recvSide.settled,
        job ∈ link.right.recvSide.settled)
    (readied : next.Readied → link.Readied)
    (confirmed :
      .resumeOk ∈ next.right.handled ↔ .resumeOk ∈ link.right.handled)
    (restarted :
      .restartFromZero ∈ next.right.handled ↔
        .restartFromZero ∈ link.right.handled) :
    next.Course keeps := by
  cases course with
  | fromZero noneWaits notConfirmed fromZero =>
      refine Link.Course.fromZero (waiting.trans noneWaits) ?_ ?_
      · rw [confirmed]
        exact notConfirmed
      · exact fun job member => fromZero job (settled job member)
  | waiting job waits isKept notReady notConfirmed notRestarted =>
      refine
        Link.Course.waiting job (waiting.trans waits) isKept
          (fun isReady => notReady (readied isReady)) ?_ ?_
      · rw [confirmed]
        exact notConfirmed
      · rw [restarted]
        exact notRestarted
  | resumed noneWaits notReady notRestarted isConfirmed kept =>
      refine
        Link.Course.resumed (waiting.trans noneWaits)
          (fun isReady => notReady (readied isReady)) ?_ ?_ ?_
      · rw [restarted]
        exact notRestarted
      · rw [confirmed]
        exact isConfirmed
      · exact fun job member => kept job (settled job member)

end Quiczilla
