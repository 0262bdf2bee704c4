import Quiczilla.OfferDelivery

/-!
# Completed receives are bound to their offers

The steps of the receiving side keep the two sides in step as well.  Along a
run without an answer for an earlier offer and without a send behind a broken
one, every completed receive has stored what its own offer announced; without
either condition, the bytes of another file are reported as complete.
-/

namespace Quiczilla

open Foundation

/-! ## Steps of the receiving side -/

/-- While an offer is taken or held, every notice is an offer. -/
theorem Link.Bound.onlyOffers
    {link : Link} (bound : link.Bound) {notice : Option Notice}
    {offer : HeldOffer} {outbox : List Letter}
    (notices :
      link.left.notices =
        notice.toList ++ (link.left.withOutbox outbox).notices)
    (grants : link.right.Grants notice offer) :
    ∀ other ∈ link.left.notices, other.offer?.isSome = true := by
  intro other member
  obtain isOffer | ⟨-, isHeld⟩ := grants
  · rw [isOffer] at notices
    have behind := (bound.sound.rest_offers notices).1
    rw [notices] at member
    obtain isFirst | later := List.mem_cons.mp member
    · rw [isFirst]
      rfl
    · exact behind other later
  · have isOffered : link.handshake.offered = some offer.number := by
      change link.right.held.map HeldOffer.number = _
      rw [isHeld]
      rfl
    have noReply := bound.sound.noReply_of_offered isOffered
    have behind := bound.sound.behind
    change ∀ notice ∈ link.left.notices.tail, _ at behind
    change ∀ notice, link.left.notices.head? = some notice → _ at noReply
    cases isNotices : link.left.notices with
    | nil =>
        rw [isNotices] at member
        cases member
    | cons first rest =>
        rw [isNotices] at member behind noReply
        obtain isFirst | later := List.mem_cons.mp member
        · rw [isFirst]
          exact noReply first rfl
        · exact behind other later

theorem Link.Bound.granted_genuine
    {link : Link} (bound : link.Bound) {notice : Option Notice}
    {offer : HeldOffer} {outbox : List Letter}
    (notices :
      link.left.notices =
        notice.toList ++ (link.left.withOutbox outbox).notices)
    (grants : link.right.Grants notice offer) :
    offer.Genuine link.left := by
  obtain isOffer | ⟨-, isHeld⟩ := grants
  · apply bound.notices
    rw [notices, isOffer]
    exact List.mem_cons_self
  · exact bound.held offer isHeld

/-- A notice that is no offer is a reply to the resume that waits. -/
theorem Link.Bound.replying
    {link : Link} (bound : link.Bound) {notice : Notice}
    {rest : List Notice} (notices : link.left.notices = notice :: rest)
    (noOffer : notice.offer? = none) :
    ∃ job, link.right.coordinator.pendingResumeRecv = some job := by
  obtain ⟨-, -, number, offset, isWaiting, -⟩ :=
    bound.sound.replying notice
      (by
        change link.left.notices.head? = some notice
        rw [notices]
        rfl)
      noOffer
  obtain ⟨job, isJob, -⟩ := Option.map_eq_some_iff.mp isWaiting
  exact ⟨job, isJob⟩

/-- What the receiving side holds and has queued. -/
theorem rightLoop_genuine
    {link : Link} {right : Peer} {outbox : List Letter}
    {notice : Option Notice} {faults : Faults} (bound : link.Bound)
    (tasks : right.taskSide = link.right.taskSide)
    (notices :
      link.left.notices =
        notice.toList ++ (link.left.withOutbox outbox).notices)
    (effect : AnsweringEffect link.right notice faults right) :
    (∀ offer, right.held = some offer → offer.Genuine link.left) ∧
      right.recvSide.Jobs (RecvJob.Genuine link.left) ∧
        ∀ job, right.coordinator.pendingResumeRecv = some job →
          0 < job.resumeOffset := by
  have sameReceiver : right.receiver = link.right.receiver :=
    congrArg TaskSide.receiver tasks
  have active : right.receiver.Holds (RecvJob.Genuine link.left) := by
    rw [sameReceiver]
    exact bound.jobs.active
  have jobsOf {waiting : Option RecvJob} {queue : List RecvJob}
      (isWaiting : right.answering.waiting = waiting)
      (isQueue : right.answering.recvQueue = queue)
      (resuming : ∀ job, waiting = some job → job.Genuine link.left)
      (queued : ∀ job ∈ queue, job.Genuine link.left) :
      right.recvSide.Jobs (RecvJob.Genuine link.left) := by
    refine ⟨?_, ?_, active⟩
    · intro job waits
      exact resuming job (isWaiting.symm.trans waits)
    · intro job member
      apply queued job
      rw [← isQueue]
      exact member
  have added {job : RecvJob} (isGenuine : job.Genuine link.left) :
      ∀ other ∈ link.right.recvQueue ++ [job],
        other.Genuine link.left := by
    intro other member
    obtain earlier | new := List.mem_append.mp member
    · exact bound.jobs.queued other earlier
    · rw [List.mem_singleton.mp new]
      exact isGenuine
  have heldOf {held : Option HeldOffer}
      (isHeld : right.answering.held = held)
      (genuine : ∀ offer, held = some offer → offer.Genuine link.left) :
      ∀ offer, right.held = some offer → offer.Genuine link.left :=
    fun offer holds => genuine offer (isHeld.symm.trans holds)
  have waitsOf {waiting : Option RecvJob}
      (isWaiting : right.answering.waiting = waiting)
      (positive : ∀ job, waiting = some job → 0 < job.resumeOffset) :
      ∀ job, right.coordinator.pendingResumeRecv = some job →
        0 < job.resumeOffset :=
    fun job waits => positive job (isWaiting.symm.trans waits)
  cases effect with
  | quiet noOffer isNext =>
      have isWaiting := congrArg Answering.waiting isNext
      exact
        ⟨heldOf (congrArg Answering.held isNext) bound.held,
          jobsOf isWaiting (congrArg Answering.recvQueue isNext)
            bound.jobs.resuming bound.jobs.queued,
          waitsOf isWaiting bound.resuming⟩
  | held offer isOffer isNext =>
      have isWaiting := congrArg Answering.waiting isNext
      refine
        ⟨heldOf (congrArg Answering.held isNext) ?_,
          jobsOf isWaiting (congrArg Answering.recvQueue isNext)
            bound.jobs.resuming bound.jobs.queued,
          waitsOf isWaiting bound.resuming⟩
      intro other isOther
      rw [← Option.some.inj isOther]
      exact bound.granted_genuine notices (Or.inl isOffer)
  | accepted offer job grants isFor fromZero isNext =>
      have isWaiting := congrArg Answering.waiting isNext
      have isGenuine : job.Genuine link.left :=
        isFor.genuine (bound.granted_genuine notices grants)
          (by
            rw [fromZero]
            exact Nat.zero_le _)
      refine
        ⟨heldOf (congrArg Answering.held isNext) (by simp),
          jobsOf isWaiting (congrArg Answering.recvQueue isNext)
            bound.jobs.resuming (added isGenuine),
          waitsOf isWaiting bound.resuming⟩
  | resumed offer job grants isFor positive fits isNext =>
      have isWaiting := congrArg Answering.waiting isNext
      have isGenuine : job.Genuine link.left :=
        isFor.genuine (bound.granted_genuine notices grants) fits
      refine
        ⟨heldOf (congrArg Answering.held isNext) (by simp),
          jobsOf isWaiting (congrArg Answering.recvQueue isNext) ?_
            bound.jobs.queued,
          waitsOf isWaiting ?_⟩
      · intro other isOther
        rw [← Option.some.inj isOther]
        exact isGenuine
      · intro other isOther
        rw [← Option.some.inj isOther]
        exact positive
  | withdrawn noNotice isNext =>
      have isWaiting := congrArg Answering.waiting isNext
      exact
        ⟨heldOf (congrArg Answering.held isNext) (by simp),
          jobsOf isWaiting (congrArg Answering.recvQueue isNext)
            bound.jobs.resuming bound.jobs.queued,
          waitsOf isWaiting bound.resuming⟩
  | confirmed job isConfirmation waits isNext =>
      have isWaiting := congrArg Answering.waiting isNext
      exact
        ⟨heldOf (congrArg Answering.held isNext) bound.held,
          jobsOf isWaiting (congrArg Answering.recvQueue isNext) (by simp)
            (added (bound.jobs.resuming job waits)),
          waitsOf isWaiting (by simp)⟩
  | restarted told job isRestart waits isNext =>
      have isWaiting := congrArg Answering.waiting isNext
      exact
        ⟨heldOf (congrArg Answering.held isNext) bound.held,
          jobsOf isWaiting (congrArg Answering.recvQueue isNext) (by simp)
            (added (bound.jobs.resuming job waits).restarted),
          waitsOf isWaiting (by simp)⟩

section RightLoop

variable {link : Link} {right : Peer} {outbox : List Letter}
  (tasks : right.taskSide = link.right.taskSide)
  (flow :
    link.left.owed ++
        link.right.answers.flatMap (Answer.granted link.left.promised) =
      link.right.awaited link.left.promised ++ link.confirmed)

include tasks in
theorem awaited_of_queue
    {queue : List RecvJob} (isQueue : right.answering.recvQueue = queue) :
    right.awaited link.left.promised =
      link.right.receiver.awaited link.left.promised ++
        queue.flatMap (RecvJob.awaited link.left.promised) := by
  have sameReceiver : right.receiver = link.right.receiver :=
    congrArg TaskSide.receiver tasks
  rw [Peer.awaited, sameReceiver, ← isQueue]
  rfl

/-- The same receive waits, and a confirmation is on its way as before. -/
theorem confirmed_of_waiting
    (sameWaiting :
      right.coordinator.pendingResumeRecv =
        link.right.coordinator.pendingResumeRecv)
    (same :
      Notice.resumeOk ∈ (link.left.withOutbox outbox).notices ↔
        Notice.resumeOk ∈ link.left.notices) :
    Link.confirmed ⟨link.left.withOutbox outbox, right⟩ =
      link.confirmed := by
  rw [Link.confirmed, Link.confirmed]
  simp only [same, sameWaiting]
  rfl

/-- No resume is confirmed on the way, before or after. -/
theorem unconfirmed_of_offers
    {notice : Option Notice}
    (notices :
      link.left.notices =
        notice.toList ++ (link.left.withOutbox outbox).notices)
    (offers : ∀ other ∈ link.left.notices, other.offer?.isSome = true) :
    link.confirmed = [] ∧
      Link.confirmed ⟨link.left.withOutbox outbox, right⟩ = [] := by
  refine ⟨confirmed_of_offers offers, confirmed_of_offers ?_⟩
  intro other member
  apply offers
  rw [notices]
  exact List.mem_append_right _ member

include tasks flow

/-- The queue and the answers stay as they are. -/
theorem rightFlow_quiet
    (sameAnswers : right.answers = link.right.answers)
    (sameQueue : right.answering.recvQueue = link.right.recvQueue)
    (sameWaiting :
      right.coordinator.pendingResumeRecv =
        link.right.coordinator.pendingResumeRecv)
    (same :
      Notice.resumeOk ∈ (link.left.withOutbox outbox).notices ↔
        Notice.resumeOk ∈ link.left.notices) :
    Link.InFlow ⟨link.left.withOutbox outbox, right⟩ := by
  have samePromises :
      (link.left.withOutbox outbox).promised = link.left.promised := rfl
  have sameOwed : (link.left.withOutbox outbox).owed = link.left.owed := rfl
  refine Or.inr ?_
  simp only
  rw [samePromises, sameOwed, sameAnswers, flow,
    confirmed_of_waiting sameWaiting same, awaited_of_queue tasks sameQueue]
  rfl

/-- An answer grants what the receives that are queued with it await. -/
theorem rightFlow_answered
    {answer : Answer} {jobs : List RecvJob}
    (before : link.confirmed = [])
    (after : Link.confirmed ⟨link.left.withOutbox outbox, right⟩ = [])
    (isAnswers : right.answers = link.right.answers ++ [answer])
    (isQueue : right.answering.recvQueue = link.right.recvQueue ++ jobs)
    (grants :
      answer.granted link.left.promised =
        jobs.flatMap (RecvJob.awaited link.left.promised)) :
    Link.InFlow ⟨link.left.withOutbox outbox, right⟩ := by
  have samePromises :
      (link.left.withOutbox outbox).promised = link.left.promised := rfl
  have sameOwed : (link.left.withOutbox outbox).owed = link.left.owed := rfl
  rw [before, List.append_nil] at flow
  refine Or.inr ?_
  simp only
  rw [samePromises, sameOwed, isAnswers, after, List.flatMap_append,
    ← List.append_assoc, flow, awaited_of_queue tasks isQueue]
  simp only [List.flatMap_append, List.flatMap_singleton, grants,
    List.append_nil, Peer.awaited, List.append_assoc]

/-- The receive that waited is queued, and awaits what was confirmed. -/
theorem rightFlow_confirmed
    {job : RecvJob} (before : link.confirmed = job.awaited link.left.promised)
    (after : Link.confirmed ⟨link.left.withOutbox outbox, right⟩ = [])
    (sameAnswers : right.answers = link.right.answers)
    (isQueue : right.answering.recvQueue = link.right.recvQueue ++ [job]) :
    Link.InFlow ⟨link.left.withOutbox outbox, right⟩ := by
  have samePromises :
      (link.left.withOutbox outbox).promised = link.left.promised := rfl
  have sameOwed : (link.left.withOutbox outbox).owed = link.left.owed := rfl
  refine Or.inr ?_
  simp only
  rw [samePromises, sameOwed, sameAnswers, flow, after, before,
    awaited_of_queue tasks isQueue]
  simp only [List.flatMap_append, List.flatMap_singleton, Peer.awaited,
    List.append_nil, List.append_assoc]

end RightLoop

/-- The receiving side takes a notice, a command or the end of its loop. -/
theorem rightLoop_flow
    {link : Link} {right : Peer} {outbox : List Letter}
    {notice : Option Notice} {faults : Faults} (bound : link.Bound)
    (tasks : right.taskSide = link.right.taskSide)
    (notices :
      link.left.notices =
        notice.toList ++ (link.left.withOutbox outbox).notices)
    (effect : AnsweringEffect link.right notice faults right) :
    Link.InFlow ⟨link.left.withOutbox outbox, right⟩ := by
  have sameReceiver : right.receiver = link.right.receiver :=
    congrArg TaskSide.receiver tasks
  obtain isStopped | flow := bound.flow
  · exact Or.inl (sameReceiver.trans isStopped)
  cases effect with
  | quiet noOffer isNext =>
      refine
        rightFlow_quiet tasks flow (congrArg Answering.answers isNext)
          (congrArg Answering.recvQueue isNext)
          (congrArg Answering.waiting isNext) ?_
      cases isNotice : notice with
      | none =>
          rw [isNotice] at notices
          rw [notices]
          rfl
      | some taken =>
          obtain ⟨isReply, noneWaiting⟩ := noOffer taken isNotice
          rw [isNotice] at notices
          obtain ⟨job, waits⟩ := bound.replying notices isReply
          rw [noneWaiting] at waits
          cases waits
  | held offer isOffer isNext =>
      refine
        rightFlow_quiet tasks flow (congrArg Answering.answers isNext)
          (congrArg Answering.recvQueue isNext)
          (congrArg Answering.waiting isNext) ?_
      rw [notices, isOffer]
      simp [HeldOffer.notice]
  | accepted offer job grants isFor fromZero isNext =>
      obtain ⟨before, after⟩ :=
        @unconfirmed_of_offers link right outbox notice notices
          (bound.onlyOffers notices grants)
      refine
        rightFlow_answered tasks flow before after
          (congrArg Answering.answers isNext)
          (congrArg Answering.recvQueue isNext) ?_
      simp only [List.flatMap_singleton, RecvJob.awaited, fromZero,
        isFor.number, List.drop_zero, Answer.granted]
  | resumed offer job grants isFor positive fits isNext =>
      obtain ⟨before, after⟩ :=
        @unconfirmed_of_offers link right outbox notice notices
          (bound.onlyOffers notices grants)
      have sameQueue : right.answering.recvQueue = link.right.recvQueue :=
        congrArg Answering.recvQueue isNext
      exact
        rightFlow_answered tasks flow before after
          (congrArg Answering.answers isNext)
          (sameQueue.trans (List.append_nil _).symm) rfl
  | withdrawn noNotice isNext =>
      refine
        rightFlow_quiet tasks flow (congrArg Answering.answers isNext)
          (congrArg Answering.recvQueue isNext)
          (congrArg Answering.waiting isNext) ?_
      rw [notices, noNotice]
      rfl
  | confirmed job isConfirmation waits isNext =>
      rw [isConfirmation] at notices
      have behind := (bound.sound.rest_offers notices).1
      have before : link.confirmed = job.awaited link.left.promised := by
        rw [Link.confirmed, notices, if_pos, waits]
        · rfl
        · exact List.mem_cons_self
      exact
        rightFlow_confirmed tasks flow before (confirmed_of_offers behind)
          (congrArg Answering.answers isNext)
          (congrArg Answering.recvQueue isNext)
  | restarted told job isRestart waits isNext =>
      rw [isRestart] at notices
      have behind := (bound.sound.rest_offers notices).1
      have before : link.confirmed = [] := by
        apply confirmed_of_notices
        rw [notices]
        intro member
        obtain isFirst | later := List.mem_cons.mp member
        · cases isFirst
        · cases behind _ later
      refine
        rightFlow_answered tasks flow before (confirmed_of_offers behind)
          (congrArg Answering.answers isNext)
          (congrArg Answering.recvQueue isNext) ?_
      simp only [List.flatMap_singleton, RecvJob.awaited, List.drop_zero,
        Answer.granted]

theorem rightLoop_bound
    {link : Link} {right : Peer} {outbox : List Letter}
    {notice : Option Notice} {faults : Faults} (bound : link.Bound)
    (tasks : right.taskSide = link.right.taskSide)
    (notices :
      link.left.notices =
        notice.toList ++ (link.left.withOutbox outbox).notices)
    (effect : AnsweringEffect link.right notice faults right)
    (sound :
      (Link.handshake ⟨link.left.withOutbox outbox, right⟩).Sound)
    (quiet :
      (Link.handshake ⟨link.left.withOutbox outbox, right⟩).Quiet) :
    Link.Bound ⟨link.left.withOutbox outbox, right⟩ := by
  have sameReceiver : right.receiver = link.right.receiver :=
    congrArg TaskSide.receiver tasks
  have sameReceipts : right.receipts = link.right.receipts :=
    congrArg TaskSide.receipts tasks
  have samePending :
      right.coordinator.pendingSendPath =
        link.right.coordinator.pendingSendPath := by
    change right.answering.pending = link.right.answering.pending
    cases effect with
    | quiet noOffer isNext => rw [isNext]
    | held offer isOffer isNext => rw [isNext]
    | accepted offer job grants isFor fromZero isNext => rw [isNext]
    | resumed offer job grants isFor positive fits isNext => rw [isNext]
    | withdrawn noNotice isNext => rw [isNext]
    | confirmed job isConfirmation waits isNext => rw [isNext]
    | restarted told job isRestart waits isNext => rw [isNext]
  obtain ⟨held, jobs, resuming⟩ :=
    rightLoop_genuine bound tasks notices effect
  constructor
  case roles =>
    exact
      ⟨⟨bound.roles.sends.noAccept, bound.roles.sends.noResume⟩,
        samePending.trans bound.roles.receives⟩
  case sound => exact sound
  case quiet => exact quiet
  case last => exact bound.last
  case reads => exact bound.reads
  case unbroken =>
    change
      right.receiver = .stopped ∨
        link.left.sender = .idle ∨ link.left.unsent = []
    rw [sameReceiver]
    exact bound.unbroken
  case notices =>
    intro offer member
    have isGenuine : offer.Genuine link.left := by
      apply bound.notices
      rw [notices]
      exact List.mem_append_right _ member
    exact ⟨isGenuine.known, isGenuine.size⟩
  case held =>
    intro offer isHeld
    have isGenuine := held offer isHeld
    exact ⟨isGenuine.known, isGenuine.size⟩
  case jobs =>
    have keeps : link.left.Keeps (link.left.withOutbox outbox) :=
      ⟨rfl, List.prefix_rfl⟩
    exact keeps.jobs jobs
  case resuming => exact resuming
  case matching =>
    change right.receiver.Matches link.left.promised
    rw [sameReceiver]
    exact bound.matching
  case honest =>
    have keeps : link.left.Keeps (link.left.withOutbox outbox) :=
      ⟨rfl, List.prefix_rfl⟩
    intro receipt member
    change receipt ∈ right.receipts at member
    rw [sameReceipts] at member
    exact keeps.receipt (bound.honest receipt member)
  case flow => exact rightLoop_flow bound tasks notices effect

/-- The receive task takes a step; `rest` is what it leaves on the stream. -/
theorem rightRecv_bound
    {link : Link} {right : Peer} {label : RecvLabel} {rest : List UInt8}
    (bound : link.Bound)
    (stepped : link.right.recvStep label = some right)
    (takes :
      (∀ chunk, label ≠ .receive chunk) ∧ rest = link.left.fileOut ∨
        ∃ chunk,
          label = .receive chunk ∧ link.left.fileOut = chunk ++ rest)
    (sound :
      (Link.handshake ⟨link.left.withFileOut rest, right⟩).Sound)
    (quiet :
      (Link.handshake ⟨link.left.withFileOut rest, right⟩).Quiet) :
    Link.Bound ⟨link.left.withFileOut rest, right⟩ := by
  have keeps : link.left.Keeps (link.left.withFileOut rest) :=
    ⟨rfl, List.prefix_rfl⟩
  have answering := recvStep_answering stepped
  have sameAnswers : right.answers = link.right.answers :=
    congrArg Answering.answers answering
  have sameWaiting :
      right.coordinator.pendingResumeRecv =
        link.right.coordinator.pendingResumeRecv :=
    congrArg Answering.waiting answering
  have jobs := taskEffect_jobs bound.jobs (recvStep_effect stepped)
  have notRunning : link.right.receiver ≠ .stopped := by
    intro isStopped
    unfold Peer.recvStep at stepped
    rw [isStopped] at stepped
    cases label <;> cases stepped
  have flow := bound.flow.resolve_left notRunning
  -- What the task does not await any more, it has taken from the stream.
  have moved :
      right.receiver.Matches link.left.promised ∧
        Link.InFlow ⟨link.left.withFileOut rest, right⟩ := by
    have sameConfirmed :
        Link.confirmed ⟨link.left.withFileOut rest, right⟩ =
          link.confirmed := by
      rw [Link.confirmed, Link.confirmed]
      simp only [sameWaiting]
      rfl
    have isOwed :
        (link.left.withFileOut rest).owed =
          rest ++ link.left.unsent ++
              link.left.sender.owed link.left.pledged ++
            link.left.sendQueue.flatMap
              (SendJob.owed link.left.pledged) := rfl
    have samePromises :
        (link.left.withFileOut rest).promised = link.left.promised := rfl
    obtain ⟨notReceive, isRest⟩ | ⟨chunk, isLabel, isFront⟩ := takes
    · obtain ⟨matching, isStopped | sameAwaited⟩ :=
        recvStep_matches bound.matching bound.jobs notReceive stepped
      · exact ⟨matching, Or.inl isStopped⟩
      · refine ⟨matching, Or.inr ?_⟩
        simp only
        rw [samePromises, sameConfirmed, sameAnswers, sameAwaited, ← flow,
          isOwed, isRest]
        rfl
    · rw [isLabel] at stepped
      rw [Peer.owed, isFront] at flow
      simp only [List.append_assoc] at flow
      obtain ⟨matching, isAwaited⟩ :=
        recvStep_receive_matches bound.matching bound.jobs flow stepped
      refine ⟨matching, Or.inr ?_⟩
      rw [isAwaited, List.append_assoc] at flow
      have behind := List.append_cancel_left flow
      simp only
      rw [samePromises, sameConfirmed, sameAnswers, isOwed, ← behind]
      simp only [List.append_assoc]
  constructor
  case roles =>
    refine
      ⟨⟨bound.roles.sends.noAccept, bound.roles.sends.noResume⟩, ?_⟩
    exact
      (congrArg Answering.pending answering).trans bound.roles.receives
  case sound => exact sound
  case quiet => exact quiet
  case last => exact bound.last
  case reads => exact bound.reads
  case unbroken =>
    exact Or.inr (bound.unbroken.resolve_left notRunning)
  case notices =>
    exact fun offer member => keeps.offer (bound.notices offer member)
  case held =>
    intro offer isHeld
    apply keeps.offer (bound.held offer _)
    exact (congrArg Answering.held answering).symm.trans isHeld
  case jobs => exact keeps.jobs jobs
  case resuming =>
    intro job waits
    exact bound.resuming job (sameWaiting.symm.trans waits)
  case matching => exact moved.1
  case honest =>
    intro receipt member
    exact
      keeps.receipt
        (recvStep_honest bound.jobs bound.matching bound.honest stepped
          receipt member)
  case flow => exact moved.2

/-! ## Runs -/

theorem bound_initial (leftFiles rightFiles : Files) :
    (Link.initial leftFiles rightFiles).Bound := by
  constructor
  case roles => exact ⟨⟨rfl, rfl⟩, rfl⟩
  case sound => exact Handshake.Sound.initial
  case quiet => exact fun _ => rfl
  case last =>
    intro pending waits
    cases waits
  case reads =>
    intro stream inlineHash isStreaming
    cases isStreaming
  case unbroken => exact Or.inr (Or.inl rfl)
  case notices =>
    intro offer member
    cases member
  case held =>
    intro offer isHeld
    cases isHeld
  case jobs => exact initial_jobs rightFiles
  case resuming =>
    intro job waits
    cases waits
  case matching => trivial
  case honest =>
    intro receipt member
    cases member
  case flow => exact Or.inr rfl

theorem linkStep_bound
    {link next : Link} {label : LinkLabel} (bound : link.Bound)
    (inStep : link.InStep label)
    (stepped : linkStep link label = some next) : next.Bound := by
  have handshake : next.handshake.Sound ∧ next.handshake.Quiet := by
    obtain same | step :=
      linkStep_handshake bound.roles bound.sound bound.quiet inStep.1
        stepped
    · rw [same]
      exact ⟨bound.sound, bound.quiet⟩
    · exact
        ⟨handshakeStep_sound bound.sound step,
          handshakeStep_quiet bound.sound bound.quiet step⟩
  obtain ⟨sound, quiet⟩ := handshake
  cases linkStep_effect stepped with
  | leftCommand command faults left sends taken =>
      have effect := commandStep_offering sends taken
      obtain ⟨files, onlySends⟩ :=
        sendingLoop_keeps bound.roles.sends
          (fun other _ isOther => by
            cases isOther
            exact sends) rfl taken
      have after :
          Link.Bound ⟨left, link.right.withOutbox link.right.outbox⟩ :=
        leftLoop_bound bound onlySends files (loopStep_taskSide rfl taken)
          rfl (fun _ isTaken => by cases isTaken) effect sound quiet
      exact after
  | leftControl faults letter rest left arrived taken =>
      have effect := controlStep_offering bound.roles.sends taken
      obtain ⟨files, onlySends⟩ :=
        sendingLoop_keeps bound.roles.sends
          (fun _ _ isCommand => by cases isCommand) rfl taken
      refine
        leftLoop_bound bound onlySends files (loopStep_taskSide rfl taken)
          (answers_of_outbox arrived) ?_ effect sound quiet
      intro answer isAnswer
      apply inStep.1 answer
      rw [arrived]
      exact isAnswer
  | leftEnds reason left taken =>
      have effect := endStep_offering .none taken
      obtain ⟨files, onlySends⟩ :=
        sendingLoop_keeps bound.roles.sends
          (fun _ _ isCommand => by cases isCommand) rfl taken
      have after :
          Link.Bound ⟨left, link.right.withOutbox link.right.outbox⟩ :=
        leftLoop_bound bound onlySends files (loopStep_taskSide rfl taken)
          rfl (fun _ isTaken => by cases isTaken) effect sound quiet
      exact after
  | leftSend label left taken =>
      refine leftSend_bound bound ?_ taken sound quiet
      intro isStart
      apply inStep.2
      rw [isStart]
  | rightCommand command faults right receives taken =>
      have effect := commandStep_answering receives taken
      have after :
          Link.Bound ⟨link.left.withOutbox link.left.outbox, right⟩ :=
        rightLoop_bound bound (loopStep_taskSide rfl taken) rfl effect
          sound quiet
      exact after
  | rightControl faults letter rest right arrived taken =>
      have effect := controlStep_answering bound.roles.receives taken
      exact
        rightLoop_bound bound (loopStep_taskSide rfl taken)
          (notices_of_outbox arrived) effect sound quiet
  | rightEnds reason right taken =>
      have effect := endStep_answering .none taken
      have after :
          Link.Bound ⟨link.left.withOutbox link.left.outbox, right⟩ :=
        rightLoop_bound bound (loopStep_taskSide rfl taken) rfl effect
          sound quiet
      exact after
  | received chunk rest right isFront taken =>
      exact
        rightRecv_bound bound taken (Or.inr ⟨chunk, rfl, isFront⟩) sound
          quiet
  | rightRecv label right notReceive taken =>
      have after :
          Link.Bound ⟨link.left.withFileOut link.left.fileOut, right⟩ :=
        rightRecv_bound bound taken (Or.inl ⟨notReceive, rfl⟩) sound quiet
      exact after

/-- The sources are not modified. -/
theorem linkStep_files
    {link next : Link} {label : LinkLabel} (roles : link.Roles)
    (stepped : linkStep link label = some next) :
    next.left.files = link.left.files := by
  cases linkStep_effect stepped with
  | leftCommand command faults left sends taken =>
      exact
        (sendingLoop_keeps roles.sends
          (fun other _ isOther => by
            cases isOther
            exact sends) rfl taken).1
  | leftControl faults letter rest left arrived taken =>
      exact
        (sendingLoop_keeps roles.sends
          (fun _ _ isCommand => by cases isCommand) rfl taken).1
  | leftEnds reason left taken =>
      exact
        (sendingLoop_keeps roles.sends
          (fun _ _ isCommand => by cases isCommand) rfl taken).1
  | leftSend label left taken => exact (sendStep_files taken).1
  | rightCommand command faults right receives taken => rfl
  | rightControl faults letter rest right arrived taken => rfl
  | rightEnds reason right taken => rfl
  | received chunk rest right isFront taken => rfl
  | rightRecv label right notReceive taken => rfl

/-- A receive that is reported as completed has stored what its own offer
announced, behind the offset that was agreed for it. -/
theorem completed_receives_are_bound
    {leftFiles rightFiles : Files} {labels : List LinkLabel} {link : Link}
    (run :
      Run linkStep Link.InStep (.initial leftFiles rightFiles) labels
        link) :
    ∀ receipt ∈ link.right.receipts, ∃ path,
      link.left.coordinator.announced[receipt.verified.job.offer]? =
          some path ∧
        ∀ content, leftFiles (components path) = some (.file content) →
          receipt.verified.job.fileSize = content.length ∧
            receipt.verified.stored =
              content.drop receipt.verified.job.resumeOffset := by
  obtain ⟨bound, files⟩ : link.Bound ∧ link.left.files = leftFiles :=
    run.preserves (fun link => link.Bound ∧ link.left.files = leftFiles)
      (fun _ _ _ holds inStep stepped =>
        ⟨linkStep_bound holds.1 inStep stepped,
          (linkStep_files holds.1.roles stepped).trans holds.2⟩)
      ⟨bound_initial leftFiles rightFiles, rfl⟩
  intro receipt member
  have honest := bound.honest receipt member
  have known := honest.genuine.known
  have isPath :=
    List.getElem?_eq_getElem known
  refine ⟨_, isPath, ?_⟩
  intro content isFile
  have isPromise :
      link.left.promised receipt.verified.job.offer = content := by
    rw [Peer.promised, isPath, Option.map_some, Option.getD_some,
      Peer.pledged, files, isFile]
  have isStored := honest.stored
  have isSize := honest.genuine.size
  rw [isPromise] at isStored isSize
  exact ⟨isSize, isStored⟩

/-- The files `a` and `b`, of one byte each. -/
def twoSources : Files := fun path =>
  if path = components "a" then some (.file [1])
  else if path = components "b" then some (.file [2])
  else none

/-- What is announced last is sent and received. -/
def sendAndReceive (chunk : List UInt8) : List LinkLabel :=
  [.leftSend .start,
    .leftSend (.openSource (.opened false)),
    .leftSend (.readChunk chunk.length),
    .leftSend .readEnd,
    .leftSend .takeChunk,
    .leftSend .writeChunk,
    .leftSend (.finish false),
    .rightRecv .start,
    .rightRecv (.openTarget .opened),
    .rightRecv (.receive chunk),
    .rightRecv .endReceive,
    .rightRecv .writeChunk,
    .rightRecv (.closeFile false false),
    .rightControl .none,
    .rightRecv (.verify false)]

/-- Both files, one after the other. -/
def oneByOne : List LinkLabel :=
  [.leftCommand (.sendFile "a" false false) .none,
    .rightControl .none,
    .rightCommand (.acceptFile "in" false false) .none,
    .leftControl .none] ++ sendAndReceive [1] ++
  [.leftCommand (.sendFile "b" false false) .none,
    .rightControl .none,
    .rightCommand (.acceptFile "in" false false) .none,
    .leftControl .none,
    .leftControl .none] ++ sendAndReceive [2]

/-- The second file is offered before the first offer is answered. -/
def overtaken : List LinkLabel :=
  [.leftCommand (.sendFile "a" false false) .none,
    .leftCommand (.sendFile "b" false false) .none,
    .rightControl .none,
    .rightCommand (.acceptFile "in" false false) .none,
    .rightControl .none,
    .leftControl .none] ++ sendAndReceive [2]

instance (link : Link) (label : LinkLabel) :
    Decidable (link.AnswersLast label) := by
  unfold Link.AnswersLast
  split <;> infer_instance

instance (link : Link) (label : LinkLabel) :
    Decidable (link.InStep label) := by
  unfold Link.InStep
  infer_instance

theorem completed_receives_are_bound_one_by_one :
    ∃ link,
      Run linkStep Link.InStep (.initial twoSources fun _ => none) oneByOne
          link ∧
        link.right.receipts.map
            (fun receipt =>
              (receipt.verified.job.offer, receipt.verified.stored)) =
          [(0, [1]), (1, [2])] ∧
          ∀ receipt ∈ link.right.receipts, ∃ path,
            link.left.coordinator.announced[receipt.verified.job.offer]? =
                some path ∧
              ∀ content,
                twoSources (components path) = some (.file content) →
                  receipt.verified.job.fileSize = content.length ∧
                    receipt.verified.stored =
                      content.drop receipt.verified.job.resumeOffset := by
  have ran :
      (guardedReplay linkStep Link.InStep
          (.initial twoSources fun _ => none) oneByOne).map
          (fun link =>
            link.right.receipts.map fun receipt =>
              (receipt.verified.job.offer, receipt.verified.stored)) =
        some [(0, [1]), (1, [2])] := by
    decide +kernel
  obtain ⟨link, reached, areReceipts⟩ := Option.map_eq_some_iff.mp ran
  have run := run_of_guardedReplay reached
  exact ⟨link, run, areReceipts, completed_receives_are_bound run⟩

/-- The answer to the first offer starts the second file, which is received
and reported as the first. -/
theorem overtaken_offer_gets_other_file :
    ∃ link,
      Run linkStep anyStep (.initial twoSources fun _ => none) overtaken
          link ∧
        link.left.coordinator.announced = ["a", "b"] ∧
          twoSources (components "a") = some (.file [1]) ∧
            link.right.receipts.map
                (fun receipt =>
                  (receipt.verified.job.offer,
                    receipt.verified.stored)) =
              [(0, [2])] := by
  have ran :
      (replay linkStep (.initial twoSources fun _ => none) overtaken).map
          (fun link =>
            (link.left.coordinator.announced,
              link.right.receipts.map fun receipt =>
                (receipt.verified.job.offer, receipt.verified.stored))) =
        some (["a", "b"], [(0, [2])]) := by
    decide +kernel
  obtain ⟨link, reached, same⟩ := Option.map_eq_some_iff.mp ran
  injection same with isAnnounced areReceipts
  exact
    ⟨link, run_of_replay reached, isAnnounced, if_pos rfl, areReceipts⟩

/-- Behind a send that has left a byte out, the next file completes the
first. -/
theorem broken_send_is_completed_by_next :
    ∃ link,
      Run linkStep anyStep
          (.initial brokenSources fun _ => none) (brokenOff false) link ∧
        link.right.receipts.map
            (fun receipt =>
              (receipt.verified.job.offer, receipt.verified.stored)) =
          [(0, [1, 3])] := by
  have ran :
      (replay linkStep
          (.initial brokenSources fun _ => none) (brokenOff false)).map
          (fun link =>
            link.right.receipts.map fun receipt =>
              (receipt.verified.job.offer, receipt.verified.stored)) =
        some [(0, [1, 3])] := by
    decide +kernel
  obtain ⟨link, reached, areReceipts⟩ := Option.map_eq_some_iff.mp ran
  exact ⟨link, run_of_replay reached, areReceipts⟩

end Quiczilla
