import Quiczilla.OfferBinding

/-!
# Delivery of what was offered

The invariant of the link while every answer is taken for the last offer and
every send starts behind a complete one: the two sides owe and await the same
bytes.  The steps of the sending side keep it.
-/

namespace Quiczilla

open Foundation

/-- No answer is taken for an offer before the last, and no send starts behind
one that has left bytes out, unless the receive task has stopped. -/
def Link.InStep (link : Link) (label : LinkLabel) : Prop :=
  link.AnswersLast label ∧
    (label = .leftSend .start →
      link.right.receiver = .stopped ∨ link.left.unsent = [])

structure Link.Bound (link : Link) : Prop where
  roles : link.Roles
  sound : link.handshake.Sound
  quiet : link.handshake.Quiet
  last :
    ∀ pending, link.left.coordinator.pendingSendPath = some pending →
      link.left.coordinator.announced.getLast? = some pending.path
  reads : link.left.ReadsToEnd
  unbroken :
    link.right.receiver = .stopped ∨
      link.left.sender = .idle ∨ link.left.unsent = []
  notices :
    ∀ offer : HeldOffer, offer.notice ∈ link.left.notices →
      offer.Genuine link.left
  held :
    ∀ offer, link.right.held = some offer → offer.Genuine link.left
  jobs : link.right.recvSide.Jobs (RecvJob.Genuine link.left)
  resuming :
    ∀ job, link.right.coordinator.pendingResumeRecv = some job →
      0 < job.resumeOffset
  matching : link.right.receiver.Matches link.left.promised
  honest :
    ∀ receipt ∈ link.right.receipts, receipt.Honest link.left
  flow : link.InFlow

/-! ## Promises are kept -/

theorem pledged_of_files
    {peer next : Peer} (files : next.files = peer.files) :
    next.pledged = peer.pledged := by
  funext path
  rw [Peer.pledged, Peer.pledged, files]

/-- Offers are added, and the sources stay as they are. -/
structure Peer.Keeps (peer next : Peer) : Prop where
  files : next.files = peer.files
  announced :
    peer.coordinator.announced <+: next.coordinator.announced

namespace Peer.Keeps

variable {sender next : Peer}

theorem promised
    (keeps : sender.Keeps next) {number : Nat}
    (known : number < sender.coordinator.announced.length) :
    next.promised number = sender.promised number := by
  obtain ⟨more, isMore⟩ := keeps.announced
  rw [Peer.promised, Peer.promised, pledged_of_files keeps.files, ← isMore,
    List.getElem?_append_left known]

theorem known
    (keeps : sender.Keeps next) {number : Nat}
    (known : number < sender.coordinator.announced.length) :
    number < next.coordinator.announced.length :=
  known.trans_le keeps.announced.length_le

theorem job
    (keeps : sender.Keeps next) {job : RecvJob}
    (isGenuine : job.Genuine sender) : job.Genuine next where
  known := keeps.known isGenuine.known
  size := by
    rw [keeps.promised isGenuine.known]
    exact isGenuine.size
  offset := isGenuine.offset

theorem offer
    (keeps : sender.Keeps next) {offer : HeldOffer}
    (isGenuine : offer.Genuine sender) : offer.Genuine next where
  known := keeps.known isGenuine.known
  size := by
    rw [keeps.promised isGenuine.known]
    exact isGenuine.size

theorem receipt
    (keeps : sender.Keeps next) {receipt : Receipt}
    (honest : receipt.Honest sender) : receipt.Honest next where
  genuine := keeps.job honest.genuine
  stored := by
    rw [keeps.promised honest.genuine.known]
    exact honest.stored

theorem jobs
    (keeps : sender.Keeps next) {side : RecvSide}
    (jobs : side.Jobs (RecvJob.Genuine sender)) :
    side.Jobs (RecvJob.Genuine next) where
  resuming := fun job waits => keeps.job (jobs.resuming job waits)
  queued := fun job member => keeps.job (jobs.queued job member)
  active := by
    have active := jobs.active
    cases phase : side.receiver with
    | idle => trivial
    | opening job =>
        rw [phase] at active
        exact keeps.job active
    | receiving current =>
        rw [phase] at active
        exact ⟨keeps.job active.1, active.2⟩
    | verifying current =>
        rw [phase] at active
        exact ⟨keeps.job active.1, active.2⟩
    | stopped => trivial

theorem matching
    (keeps : sender.Keeps next) {phase : RecvPhase}
    (active : phase.Holds (RecvJob.Genuine sender))
    (matching : phase.Matches sender.promised) :
    phase.Matches next.promised := by
  cases phase with
  | idle => trivial
  | opening job => trivial
  | receiving current =>
      rw [RecvPhase.Matches, keeps.promised active.1.known]
      exact matching
  | verifying current =>
      rw [RecvPhase.Matches, keeps.promised active.1.known]
      exact matching
  | stopped => trivial

theorem awaitedJob
    (keeps : sender.Keeps next) {job : RecvJob}
    (isGenuine : job.Genuine sender) :
    job.awaited next.promised = job.awaited sender.promised := by
  rw [RecvJob.awaited, RecvJob.awaited, keeps.promised isGenuine.known]

theorem awaited
    (keeps : sender.Keeps next) {peer : Peer}
    (jobs : peer.recvSide.Jobs (RecvJob.Genuine sender)) :
    peer.awaited next.promised = peer.awaited sender.promised := by
  have active : peer.receiver.Holds (RecvJob.Genuine sender) :=
    jobs.active
  have samePhase :
      peer.receiver.awaited next.promised =
        peer.receiver.awaited sender.promised := by
    cases phase : peer.receiver with
    | idle => rfl
    | opening job =>
        rw [phase] at active
        exact keeps.awaitedJob active
    | receiving current =>
        rw [phase] at active
        rw [RecvPhase.awaited, RecvPhase.awaited,
          keeps.promised active.1.known]
    | verifying current => rfl
    | stopped => rfl
  have sameQueue :
      peer.recvQueue.flatMap (RecvJob.awaited next.promised) =
        peer.recvQueue.flatMap (RecvJob.awaited sender.promised) := by
    apply List.flatMap_congr
    intro job member
    exact keeps.awaitedJob (jobs.queued job member)
  rw [Peer.awaited, Peer.awaited, samePhase, sameQueue]

theorem granted
    (keeps : sender.Keeps next) {answers : List Answer}
    (known :
      ∀ answer ∈ answers,
        answer.number < sender.coordinator.announced.length) :
    answers.flatMap (Answer.granted next.promised) =
      answers.flatMap (Answer.granted sender.promised) := by
  apply List.flatMap_congr
  intro answer member
  have isKnown := known answer member
  cases answer with
  | ready number => exact keeps.promised isKnown
  | resumeReady number offset prefixHash => rfl

end Peer.Keeps

/-! ## Steps of the sending side -/

/-- The loop of a peer that only sends leaves the sources alone, and goes on
only to send. -/
theorem sendingLoop_keeps
    {peer next : Peer} {label : PeerLabel} (sends : peer.OnlySends)
    (noAccept :
      ∀ command faults, label = .command command faults →
        command.sends = true)
    (isLoop : label.isLoop = true)
    (stepped : peerStep peer label = some next) :
    next.files = peer.files ∧ next.OnlySends := by
  have noneApplied : peer.applied label = none := by
    cases label with
    | control letter faults =>
        obtain ⟨message, offer⟩ := letter
        cases message <;> simp [Peer.applied, sends.noAccept]
    | command command faults =>
        have isSend := noAccept command faults rfl
        cases command <;> simp [Peer.applied, PeerCommand.sends] at isSend ⊢
    | loopEnds reason => rfl
    | send label => rfl
    | recv label => rfl
  have sameSide : next.recvSide = peer.recvSide := by
    obtain effect | ⟨recvLabel, rfl, -⟩ := peerStep_effect stepped
    · generalize next.recvSide = side at effect
      cases effect with
      | quiet noneApplied => rfl
      | accepted applied faults side isApplied hasFaults effect =>
          rw [noneApplied] at isApplied
          cases isApplied
      | resumed job noneApplied isMessage waits =>
          rw [sends.noResume] at waits
          cases waits
      | restarted job noneApplied isMessage waits =>
          rw [sends.noResume] at waits
          cases waits
      | recreated job partPath created noneApplied isMessage waits =>
          rw [sends.noResume] at waits
          cases waits
    · cases isLoop
  have sameFiles : next.files = peer.files :=
    congrArg RecvSide.files sameSide
  have sameResume :
      next.coordinator.pendingResumeRecv =
        peer.coordinator.pendingResumeRecv :=
    congrArg RecvSide.pendingResumeRecv sameSide
  refine ⟨sameFiles, ?_, sameResume.trans sends.noResume⟩
  have slots := peerStep_slots stepped
  have isSlots : peer.slots.accept = none := sends.noAccept
  change next.slots.accept = none
  generalize next.slots = others at slots
  cases slots with
  | unchanged => exact isSlots
  | offered name size isMessage noAccept => rfl
  | autoAccepted => rfl
  | taken => exact isSlots
  | waiting accept isCommand =>
      obtain ⟨faults, isLabel⟩ := isCommand
      cases noAccept _ _ isLabel

theorem owed_of_loop
    {peer next : Peer} (files : next.files = peer.files)
    (tasks : next.taskSide = peer.taskSide) :
    next.owed =
      peer.fileOut ++ peer.unsent ++ peer.sender.owed peer.pledged ++
        next.sendQueue.flatMap (SendJob.owed peer.pledged) := by
  have sameOut : next.fileOut = peer.fileOut :=
    congrArg TaskSide.fileOut tasks
  have sameUnsent : next.unsent = peer.unsent :=
    congrArg TaskSide.unsent tasks
  have sameSender : next.sender = peer.sender :=
    congrArg TaskSide.sender tasks
  rw [Peer.owed, pledged_of_files files, sameOut, sameUnsent, sameSender]

theorem Link.Bound.alone
    {link : Link} (bound : link.Bound) {answer : Answer}
    {rest : List Answer}
    (answers : link.right.answers = answer :: rest)
    (isLast :
      answer.number + 1 = link.left.coordinator.announced.length) :
    link.right.answers = [answer] ∧ link.left.notices = [] := by
  obtain ⟨isEmpty, -, noNotices⟩ := bound.sound.alone answers isLast
  rw [isEmpty] at answers
  exact ⟨answers, noNotices⟩

theorem promised_last
    {peer : Peer} {path : String} {number : Nat}
    (isLast : peer.coordinator.announced.getLast? = some path)
    (isNumber : number + 1 = peer.coordinator.announced.length) :
    peer.promised number = peer.pledged path := by
  rw [List.getLast?_eq_getElem?, ← isNumber, Nat.add_sub_cancel] at isLast
  rw [Peer.promised, isLast, Option.map_some, Option.getD_some]

theorem length_pledged
    {peer : Peer} {path : String} {size : Nat}
    (measured : peer.files.length? (components path) = some size) :
    (peer.pledged path).length = size := by
  rw [FileStore.length?] at measured
  rw [Peer.pledged]
  cases isNode : peer.files (components path) with
  | none =>
      rw [isNode] at measured
      cases measured
  | some node =>
      rw [isNode] at measured
      cases node with
      | file content => exact Option.some.inj measured
      | directory length =>
          simp only [List.length_replicate]
          exact Option.some.inj measured

section Offering

variable {peer next : Peer} {answer : Option Answer} {faults : Faults}

theorem offeringEffect_announced
    (effect : OfferingEffect peer answer faults next.offering) :
    peer.coordinator.announced <+: next.coordinator.announced := by
  have isAnnounced :
      next.offering.announced = next.coordinator.announced := rfl
  rw [← isAnnounced]
  cases effect with
  | quiet noAnswer isNext =>
      rw [isNext]
      exact List.prefix_rfl
  | announced pending size noAnswer measured isNext =>
      rw [isNext]
      exact List.prefix_append _ _
  | started taken pending isTaken waits fromZero isNext =>
      rw [isNext]
      exact List.prefix_rfl
  | confirmed number offset prefixHash pending isTaken waits positive same
      isNext =>
      rw [isNext]
      exact List.prefix_rfl
  | refuted number offset prefixHash pending isTaken waits positive other
      isNext =>
      rw [isNext]
      exact List.prefix_rfl

/-- The offer that waits is the last. -/
theorem offeringEffect_last
    (effect : OfferingEffect peer answer faults next.offering)
    (last :
      ∀ pending, peer.coordinator.pendingSendPath = some pending →
        peer.coordinator.announced.getLast? = some pending.path) :
    ∀ pending, next.coordinator.pendingSendPath = some pending →
      next.coordinator.announced.getLast? = some pending.path := by
  intro waiting isWaiting
  change next.offering.pending = some waiting at isWaiting
  change next.offering.announced.getLast? = some waiting.path
  cases effect with
  | quiet noAnswer isNext =>
      rw [isNext] at isWaiting ⊢
      exact last waiting isWaiting
  | announced pending size noAnswer measured isNext =>
      rw [isNext] at isWaiting ⊢
      rw [← Option.some.inj isWaiting]
      exact List.getLast?_concat
  | started taken pending isTaken waits fromZero isNext =>
      rw [isNext] at isWaiting
      cases isWaiting
  | confirmed number offset prefixHash pending isTaken waits positive same
      isNext =>
      rw [isNext] at isWaiting
      cases isWaiting
  | refuted number offset prefixHash pending isTaken waits positive other
      isNext =>
      rw [isNext] at isWaiting ⊢
      rw [← Option.some.inj isWaiting]
      exact last pending waits

/-- What the peer announces is what it has. -/
theorem offeringEffect_notices
    (effect : OfferingEffect peer answer faults next.offering)
    (files : next.files = peer.files)
    (genuine :
      ∀ offer : HeldOffer, offer.notice ∈ peer.notices →
        offer.Genuine peer) :
    ∀ offer : HeldOffer, offer.notice ∈ next.notices →
      offer.Genuine next := by
  have keeps : peer.Keeps next :=
    ⟨files, offeringEffect_announced effect⟩
  intro offer member
  change offer.notice ∈ next.offering.notices at member
  cases effect with
  | quiet noAnswer isNext =>
      rw [isNext] at member
      exact keeps.offer (genuine offer member)
  | announced pending size noAnswer measured isNext =>
      have isAnnounced :
          next.coordinator.announced =
            peer.coordinator.announced ++ [pending.path] :=
        congrArg Offering.announced isNext
      rw [isNext] at member
      obtain earlier | new := List.mem_append.mp member
      · exact keeps.offer (genuine offer earlier)
      · obtain ⟨isNumber, -, isSize⟩ :=
          Notice.offer.inj (List.mem_singleton.mp new)
        have isCount :
            offer.number + 1 = next.coordinator.announced.length := by
          rw [isAnnounced, isNumber, List.length_append,
            List.length_singleton]
        have isPromise :
            next.promised offer.number = next.pledged pending.path := by
          refine promised_last ?_ isCount
          rw [isAnnounced]
          exact List.getLast?_concat
        refine ⟨by omega, ?_⟩
        rw [isPromise, pledged_of_files files, length_pledged measured,
          isSize]
  | started taken pending isTaken waits fromZero isNext =>
      rw [isNext] at member
      exact keeps.offer (genuine offer member)
  | confirmed number offset prefixHash pending isTaken waits positive same
      isNext =>
      rw [isNext] at member
      obtain earlier | new := List.mem_append.mp member
      · exact keeps.offer (genuine offer earlier)
      · cases List.mem_singleton.mp new
  | refuted number offset prefixHash pending isTaken waits positive other
      isNext =>
      rw [isNext] at member
      obtain earlier | new := List.mem_append.mp member
      · exact keeps.offer (genuine offer earlier)
      · cases List.mem_singleton.mp new

end Offering

/-! ### The flow -/

theorem confirmed_of_offers
    {link : Link}
    (offers :
      ∀ notice ∈ link.left.notices, notice.offer?.isSome = true) :
    link.confirmed = [] := by
  rw [Link.confirmed, if_neg]
  intro member
  cases offers _ member

theorem confirmed_of_notices
    {link : Link} (noConfirmation : Notice.resumeOk ∉ link.left.notices) :
    link.confirmed = [] := by
  rw [Link.confirmed, if_neg noConfirmation]

/-- A resume that was confirmed awaits what it awaited. -/
theorem confirmed_congr
    {link : Link} {left : Peer} {outbox : List Letter}
    (keeps : link.left.Keeps left)
    (jobs : link.right.recvSide.Jobs (RecvJob.Genuine link.left))
    (same :
      Notice.resumeOk ∈ left.notices ↔
        Notice.resumeOk ∈ link.left.notices) :
    Link.confirmed ⟨left, link.right.withOutbox outbox⟩ =
      link.confirmed := by
  have sameJob :
      (link.right.coordinator.pendingResumeRecv.map
          (RecvJob.awaited left.promised)) =
        link.right.coordinator.pendingResumeRecv.map
          (RecvJob.awaited link.left.promised) := by
    cases waits : link.right.coordinator.pendingResumeRecv with
    | none => rfl
    | some job =>
        rw [Option.map_some, Option.map_some,
          keeps.awaitedJob (jobs.resuming job waits)]
  rw [Link.confirmed, Link.confirmed]
  simp only [same]
  split
  · exact congrArg (fun bytes => Option.getD bytes []) sameJob
  · rfl

/-- The resume that a lone answer offers is the one that waits. -/
theorem Link.Bound.waiting
    {link : Link} (bound : link.Bound) {number offset : Nat}
    {prefixHash : Option String}
    (answers :
      link.right.answers = [.resumeReady number offset prefixHash]) :
    ∃ job, link.right.coordinator.pendingResumeRecv = some job ∧
      job.offer = number ∧ job.resumeOffset = offset := by
  have isWaiting : link.handshake.waiting = some (number, offset) := by
    apply bound.sound.resuming number offset prefixHash
    change link.right.answers.getLast? = _
    rw [answers]
    rfl
  obtain ⟨job, isJob, same⟩ := Option.map_eq_some_iff.mp isWaiting
  obtain ⟨isNumber, isOffset⟩ := Prod.mk.inj same
  exact ⟨job, isJob, isNumber, isOffset⟩

/-- An answer for the last offer starts a send: what it granted is owed. -/
theorem granted_of_started
    {link : Link} (bound : link.Bound) {taken : Answer}
    {pending : PendingSend} (offer : Nat)
    (answers : link.right.answers = [taken])
    (isLast : taken.number + 1 = link.left.coordinator.announced.length)
    (waits : link.left.coordinator.pendingSendPath = some pending)
    (fromZero :
      ∀ number offset prefixHash,
        taken = .resumeReady number offset prefixHash → offset = 0) :
    taken.granted link.left.promised =
      (SendJob.of pending 0 offer).owed link.left.pledged := by
  cases taken with
  | ready number =>
      exact promised_last (bound.last pending waits) isLast
  | resumeReady number offset prefixHash =>
      have isZero := fromZero number offset prefixHash rfl
      obtain ⟨job, isJob, -, isOffset⟩ := bound.waiting answers
      have positive := bound.resuming job isJob
      omega

section LeftLoop

variable {link : Link} {left : Peer} {outbox : List Letter}
  {answer : Option Answer} {taken : Answer} (bound : link.Bound)
  (keeps : link.left.Keeps left)
  (tasks : left.taskSide = link.left.taskSide)
  (flow :
    link.left.owed ++
        link.right.answers.flatMap (Answer.granted link.left.promised) =
      link.right.awaited link.left.promised ++ link.confirmed)
  (answers :
    link.right.answers =
      taken :: (link.right.withOutbox outbox).answers)
  (isLast : taken.number + 1 = link.left.coordinator.announced.length)

include bound answers isLast in
/-- The answer for the last offer is the only one on its way. -/
theorem lone_answer :
    link.right.answers = [taken] ∧ link.left.notices = [] ∧
      (link.right.withOutbox outbox).answers = [] := by
  obtain ⟨alone, noNotices⟩ := bound.alone answers isLast
  rw [alone] at answers
  exact ⟨alone, noNotices, (List.cons.inj answers).2.symm⟩

include keeps tasks in
theorem owed_of_queue
    {queue : List SendJob} (isQueue : left.offering.sendQueue = queue) :
    left.owed =
      link.left.fileOut ++ link.left.unsent ++
          link.left.sender.owed link.left.pledged ++
        queue.flatMap (SendJob.owed link.left.pledged) := by
  rw [owed_of_loop keeps.files tasks, ← isQueue]
  rfl

include bound keeps tasks flow

/-- A step that takes no answer and starts no send. -/
theorem flow_unasked
    (sameAnswers :
      link.right.answers = (link.right.withOutbox outbox).answers)
    (sameQueue : left.sendQueue = link.left.sendQueue)
    (same :
      Notice.resumeOk ∈ left.notices ↔
        Notice.resumeOk ∈ link.left.notices) :
    Link.InFlow ⟨left, link.right.withOutbox outbox⟩ := by
  have isKnown :
      ∀ answer ∈ link.right.answers,
        answer.number < link.left.coordinator.announced.length := by
    intro answer member
    apply bound.sound.known
    have isAnswer : answer.number ∈ link.right.answers.map Answer.number :=
      List.mem_map_of_mem member
    simp only [Handshake.trail, List.mem_append]
    exact Or.inl (Or.inl (Or.inl isAnswer))
  have sameAwaited :
      (link.right.withOutbox outbox).awaited left.promised =
        link.right.awaited link.left.promised :=
    keeps.awaited bound.jobs
  refine Or.inr ?_
  simp only
  rw [confirmed_congr keeps bound.jobs same, sameAwaited, ← flow,
    ← sameAnswers, keeps.granted isKnown, owed_of_loop keeps.files tasks,
    sameQueue]
  rfl

include answers isLast

/-- The send starts: what was granted is owed. -/
theorem flow_started
    {pending : PendingSend}
    (waits : link.left.coordinator.pendingSendPath = some pending)
    (fromZero :
      ∀ number offset prefixHash,
        taken = .resumeReady number offset prefixHash → offset = 0)
    (isQueue :
      left.offering.sendQueue =
        link.left.sendQueue ++ [SendJob.of pending 0 link.left.lastOffer])
    (sameNotices : left.notices = link.left.notices) :
    Link.InFlow ⟨left, link.right.withOutbox outbox⟩ := by
  obtain ⟨alone, -, noMore⟩ := lone_answer bound answers isLast
  have sameAwaited :
      (link.right.withOutbox outbox).awaited left.promised =
        link.right.awaited link.left.promised :=
    keeps.awaited bound.jobs
  have quietly :
      Link.confirmed ⟨left, link.right.withOutbox outbox⟩ =
        link.confirmed := by
    apply confirmed_congr keeps bound.jobs
    rw [sameNotices]
  refine Or.inr ?_
  simp only
  rw [quietly, sameAwaited, ← flow, noMore, alone,
    owed_of_queue keeps tasks isQueue, Peer.owed]
  simp only [List.flatMap_append, List.flatMap_singleton,
    List.flatMap_nil, List.append_nil, List.append_assoc]
  rw [granted_of_started bound link.left.lastOffer alone isLast waits
    fromZero]

omit tasks flow in
/-- What is confirmed is the rest of the source. -/
theorem confirmed_rest
    {number offset : Nat} {prefixHash : Option String}
    {pending : PendingSend}
    (isTaken : taken = .resumeReady number offset prefixHash)
    (waits : link.left.coordinator.pendingSendPath = some pending)
    (isNotices : left.notices = link.left.notices ++ [.resumeOk]) :
    Link.confirmed ⟨left, link.right.withOutbox outbox⟩ =
      (SendJob.of pending offset link.left.lastOffer).owed
        link.left.pledged := by
  obtain ⟨alone, -, -⟩ := lone_answer bound answers isLast
  subst isTaken
  obtain ⟨job, isJob, isNumber, isOffset⟩ := bound.waiting alone
  have member : Notice.resumeOk ∈ left.notices := by
    rw [isNotices]
    exact List.mem_append_right _ List.mem_cons_self
  have isRest :
      Link.confirmed ⟨left, link.right.withOutbox outbox⟩ =
        job.awaited left.promised := by
    rw [Link.confirmed, if_pos member]
    change
      (link.right.coordinator.pendingResumeRecv.map
        (RecvJob.awaited left.promised)).getD [] = _
    rw [isJob]
    rfl
  have isPromise :
      link.left.promised number = link.left.pledged pending.path :=
    promised_last (bound.last pending waits) isLast
  rw [isRest, keeps.awaitedJob (bound.jobs.resuming job isJob),
    RecvJob.awaited, isNumber, isOffset, isPromise]
  rfl

/-- The send behind what is kept starts, and is confirmed. -/
theorem flow_confirmed
    {number offset : Nat} {prefixHash : Option String}
    {pending : PendingSend}
    (isTaken : taken = .resumeReady number offset prefixHash)
    (waits : link.left.coordinator.pendingSendPath = some pending)
    (isQueue :
      left.offering.sendQueue =
        link.left.sendQueue ++
          [SendJob.of pending offset link.left.lastOffer])
    (isNotices : left.notices = link.left.notices ++ [.resumeOk]) :
    Link.InFlow ⟨left, link.right.withOutbox outbox⟩ := by
  obtain ⟨alone, noNotices, noMore⟩ := lone_answer bound answers isLast
  have sameAwaited :
      (link.right.withOutbox outbox).awaited left.promised =
        link.right.awaited link.left.promised :=
    keeps.awaited bound.jobs
  have confirms :=
    confirmed_rest bound keeps answers isLast isTaken waits isNotices
  have unconfirmed : link.confirmed = [] := by
    apply confirmed_of_notices
    rw [noNotices]
    exact List.not_mem_nil
  rw [alone, isTaken, unconfirmed, List.flatMap_singleton, Answer.granted,
    List.append_nil, List.append_nil, Peer.owed] at flow
  refine Or.inr ?_
  simp only
  rw [confirms, sameAwaited, ← flow, noMore,
    owed_of_queue keeps tasks isQueue]
  simp only [List.flatMap_append, List.flatMap_singleton,
    List.flatMap_nil, List.append_nil, List.append_assoc]

/-- A restart is asked for: nothing has been granted. -/
theorem flow_refuted
    {number offset told : Nat} {prefixHash : Option String}
    (isTaken : taken = .resumeReady number offset prefixHash)
    (isQueue : left.offering.sendQueue = link.left.sendQueue)
    (isNotices : left.notices = link.left.notices ++ [.restart told]) :
    Link.InFlow ⟨left, link.right.withOutbox outbox⟩ := by
  obtain ⟨alone, -, noMore⟩ := lone_answer bound answers isLast
  have sameAwaited :
      (link.right.withOutbox outbox).awaited left.promised =
        link.right.awaited link.left.promised :=
    keeps.awaited bound.jobs
  have quietly :
      Link.confirmed ⟨left, link.right.withOutbox outbox⟩ =
        link.confirmed := by
    apply confirmed_congr keeps bound.jobs
    simp [isNotices]
  refine Or.inr ?_
  simp only
  rw [quietly, sameAwaited, ← flow, noMore, alone, isTaken,
    owed_of_queue keeps tasks isQueue]
  rfl

end LeftLoop

/-- The sending side takes an answer, a command or the end of its loop. -/
theorem leftLoop_flow
    {link : Link} {left : Peer} {outbox : List Letter}
    {answer : Option Answer} {faults : Faults} (bound : link.Bound)
    (files : left.files = link.left.files)
    (tasks : left.taskSide = link.left.taskSide)
    (answers :
      link.right.answers =
        answer.toList ++ (link.right.withOutbox outbox).answers)
    (isLast :
      ∀ taken, answer = some taken →
        taken.number + 1 = link.left.coordinator.announced.length)
    (effect : OfferingEffect link.left answer faults left.offering) :
    Link.InFlow ⟨left, link.right.withOutbox outbox⟩ := by
  have keeps : link.left.Keeps left :=
    ⟨files, offeringEffect_announced effect⟩
  obtain isStopped | flow := bound.flow
  · exact Or.inl isStopped
  cases effect with
  | quiet noAnswer isNext =>
      cases isAnswer : answer with
      | none =>
          rw [isAnswer] at answers
          refine
            flow_unasked bound keeps tasks flow answers
              (congrArg Offering.sendQueue isNext) ?_
          have sameNotices : left.notices = link.left.notices :=
            congrArg Offering.notices isNext
          rw [sameNotices]
      | some taken =>
          rw [isAnswer] at answers
          have isPending :=
            bound.sound.pending_of_answer answers (isLast taken isAnswer)
          change
            link.left.coordinator.pendingSendPath.isSome = true
              at isPending
          rw [noAnswer taken isAnswer] at isPending
          cases isPending
  | announced pending size noAnswer measured isNext =>
      rw [noAnswer] at answers
      refine
        flow_unasked bound keeps tasks flow answers
          (congrArg Offering.sendQueue isNext) ?_
      have isNotices :
          left.notices =
            link.left.notices ++
              [.offer link.left.coordinator.announced.length
                (offeredName pending.path) size] :=
        congrArg Offering.notices isNext
      simp [isNotices]
  | started taken pending isTaken waits fromZero isNext =>
      rw [isTaken] at answers
      exact
        flow_started bound keeps tasks flow answers (isLast taken isTaken)
          waits fromZero (congrArg Offering.sendQueue isNext)
          (congrArg Offering.notices isNext)
  | confirmed number offset prefixHash pending isTaken waits positive same
      isNext =>
      rw [isTaken] at answers
      exact
        flow_confirmed bound keeps tasks flow answers (isLast _ isTaken) rfl
          waits (congrArg Offering.sendQueue isNext)
          (congrArg Offering.notices isNext)
  | refuted number offset prefixHash pending isTaken waits positive other
      isNext =>
      rw [isTaken] at answers
      exact
        flow_refuted bound keeps tasks flow answers (isLast _ isTaken) rfl
          (congrArg Offering.sendQueue isNext)
          (congrArg Offering.notices isNext)

theorem leftLoop_bound
    {link : Link} {left : Peer} {outbox : List Letter}
    {answer : Option Answer} {faults : Faults} (bound : link.Bound)
    (sends : left.OnlySends)
    (files : left.files = link.left.files)
    (tasks : left.taskSide = link.left.taskSide)
    (answers :
      link.right.answers =
        answer.toList ++ (link.right.withOutbox outbox).answers)
    (isLast :
      ∀ taken, answer = some taken →
        taken.number + 1 = link.left.coordinator.announced.length)
    (effect : OfferingEffect link.left answer faults left.offering)
    (sound :
      (Link.handshake ⟨left, link.right.withOutbox outbox⟩).Sound)
    (quiet :
      (Link.handshake ⟨left, link.right.withOutbox outbox⟩).Quiet) :
    Link.Bound ⟨left, link.right.withOutbox outbox⟩ := by
  have keeps : link.left.Keeps left :=
    ⟨files, offeringEffect_announced effect⟩
  have sameSender : left.sender = link.left.sender :=
    congrArg TaskSide.sender tasks
  have sameUnsent : left.unsent = link.left.unsent :=
    congrArg TaskSide.unsent tasks
  exact
    { roles := ⟨sends, bound.roles.receives⟩
      sound := sound
      quiet := quiet
      last := offeringEffect_last effect bound.last
      reads := by
        intro stream inlineHash isStreaming isFinished
        change left.sender = .streaming stream at isStreaming
        rw [sameSender] at isStreaming
        rw [pledged_of_files files]
        exact bound.reads stream inlineHash isStreaming isFinished
      unbroken := by
        change
          link.right.receiver = .stopped ∨
            left.sender = .idle ∨ left.unsent = []
        rw [sameSender, sameUnsent]
        exact bound.unbroken
      notices := offeringEffect_notices effect files bound.notices
      held := fun offer isHeld => keeps.offer (bound.held offer isHeld)
      jobs := keeps.jobs bound.jobs
      resuming := bound.resuming
      matching := keeps.matching bound.jobs.active bound.matching
      honest := fun receipt member =>
        keeps.receipt (bound.honest receipt member)
      flow := leftLoop_flow bound files tasks answers isLast effect }

/-- The send task takes a step. -/
theorem leftSend_bound
    {link : Link} {left : Peer} {label : SendLabel} (bound : link.Bound)
    (starts :
      label = .start →
        link.right.receiver = .stopped ∨ link.left.unsent = [])
    (stepped : link.left.sendStep label = some left)
    (sound : (Link.handshake ⟨left, link.right⟩).Sound)
    (quiet : (Link.handshake ⟨left, link.right⟩).Quiet) :
    Link.Bound ⟨left, link.right⟩ := by
  obtain ⟨files, coordinator⟩ := sendStep_files stepped
  have keeps : link.left.Keeps left := by
    refine ⟨files, ?_⟩
    rw [coordinator]
  have sameNotices : left.notices = link.left.notices :=
    congrArg Offering.notices (sendStep_offering stepped)
  have complete :
      link.right.receiver = .stopped ∨ link.left.unsent = [] := by
    obtain isStopped | isIdle | isEmpty := bound.unbroken
    · exact Or.inl isStopped
    · exact starts (sendStep_start isIdle stepped)
    · exact Or.inr isEmpty
  constructor
  case roles =>
    refine ⟨⟨?_, ?_⟩, bound.roles.receives⟩
    · rw [coordinator]
      exact bound.roles.sends.noAccept
    · rw [coordinator]
      exact bound.roles.sends.noResume
  case sound => exact sound
  case quiet => exact quiet
  case last =>
    rw [coordinator]
    exact bound.last
  case reads => exact readsToEnd_sendStep bound.reads stepped
  case unbroken =>
    obtain isStopped | isEmpty := complete
    · exact Or.inl isStopped
    · exact Or.inr (sendStep_unbroken isEmpty stepped)
  case notices =>
    intro offer member
    rw [sameNotices] at member
    exact keeps.offer (bound.notices offer member)
  case held => exact fun offer isHeld => keeps.offer (bound.held offer isHeld)
  case jobs => exact keeps.jobs bound.jobs
  case resuming => exact bound.resuming
  case matching => exact keeps.matching bound.jobs.active bound.matching
  case honest =>
    exact fun receipt member => keeps.receipt (bound.honest receipt member)
  case flow =>
    obtain isStopped | isEmpty := complete
    · exact Or.inl isStopped
    · obtain isStopped | flow := bound.flow
      · exact Or.inl isStopped
      · have samePromises : left.promised = link.left.promised := by
          funext number
          rw [Peer.promised, Peer.promised, coordinator,
            pledged_of_files files]
        refine Or.inr ?_
        simp only
        rw [sendStep_owed bound.reads isEmpty stepped, samePromises, flow,
          Link.confirmed, Link.confirmed, samePromises, sameNotices]

end Quiczilla
