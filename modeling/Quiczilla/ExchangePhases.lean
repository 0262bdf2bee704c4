import Quiczilla.ExchangeCourse

/-!
# Before and after the accept

The receiving side of an exchange is as it was until it accepts the offer.
From then on it has one receive, which accounts for every byte that the
sending side has put on the stream.
-/

namespace Quiczilla

open Foundation

/-- Nothing has been accepted. -/
structure Link.Unaccepted (rightFiles : Files) (link : Link) : Prop where
  files : link.right.files = rightFiles
  atRest : link.right.recvSide.unfinished = []
  idle : link.right.receiver = .idle
  receipts : link.right.receipts = []
  unready : ¬link.Readied
  unconfirmed : .resumeOk ∉ link.right.handled
  unrestarted : .restartFromZero ∉ link.right.handled
  untaken : link.left.fileSent = link.left.fileOut

/-- The offer has been accepted, and its receive accounts for every byte on the
stream. -/
structure Exchange.Accepted
    (exchange : Exchange) (rightFiles : Files) (size : Nat) (link : Link) :
    Prop where
  sole :
    link.right.recvSide.Sole rightFiles (exchange.applied size) []
  offered : link.left.coordinator.announced ≠ []
  taken : ∀ notice ∈ link.left.notices, notice.offer? = none
  unheld : link.right.held = none
  course : link.Course ((exchange.applied size).Keeps rightFiles)
  consumed :
    ∀ bytes, link.right.recvSide.Took bytes →
      link.left.fileSent = bytes ++ link.left.fileOut
  running : link.right.receiver = .stopped → link.right.receipts = []

theorem unaccepted_initial (leftFiles rightFiles : Files) :
    (Link.initial leftFiles rightFiles).Unaccepted rightFiles where
  files := rfl
  atRest := rfl
  idle := rfl
  receipts := rfl
  unready := by
    rintro (handled | ⟨number, isAnswer⟩)
    · cases handled
    · cases isAnswer
  unconfirmed := List.not_mem_nil
  unrestarted := List.not_mem_nil
  untaken := rfl

/-- What the send task puts on the stream is noted. -/
theorem sendStep_put
    {peer next : Peer} {label : SendLabel}
    (stepped : peer.sendStep label = some next) :
    ∃ bytes, next.fileOut = peer.fileOut ++ bytes ∧
      next.fileSent = peer.fileSent ++ bytes := by
  have nothing {others : Peer} (out : others.fileOut = peer.fileOut)
      (sent : others.fileSent = peer.fileSent) :
      ∃ bytes, others.fileOut = peer.fileOut ++ bytes ∧
        others.fileSent = peer.fileSent ++ bytes :=
    ⟨[], by rw [out, List.append_nil], by rw [sent, List.append_nil]⟩
  cases sendStep_effect stepped with
  | wrote stream chunk => exact ⟨chunk, rfl, rfl⟩
  | wroteStopped stream chunk length =>
      exact ⟨chunk.take length, rfl, rfl⟩
  | _ => exact nothing rfl rfl

/-! ## Steps of the sending side -/

section Sending

variable {rightFiles : Files} {exchange : Exchange} {size : Nat}
  {link : Link} {left : Peer} {outbox : List Letter}

theorem Link.Unaccepted.sending
    (unaccepted : link.Unaccepted rightFiles)
    (readied :
      Link.Readied ⟨left, link.right.withOutbox outbox⟩ → link.Readied)
    (stream :
      ∃ bytes, left.fileOut = link.left.fileOut ++ bytes ∧
        left.fileSent = link.left.fileSent ++ bytes) :
    Link.Unaccepted rightFiles ⟨left, link.right.withOutbox outbox⟩ where
  files := unaccepted.files
  atRest := unaccepted.atRest
  idle := unaccepted.idle
  receipts := unaccepted.receipts
  unready isReady := unaccepted.unready (readied isReady)
  unconfirmed := unaccepted.unconfirmed
  unrestarted := unaccepted.unrestarted
  untaken := by
    obtain ⟨bytes, out, sent⟩ := stream
    change left.fileSent = left.fileOut
    rw [out, sent, unaccepted.untaken]

theorem Exchange.Accepted.sending
    (accepted : exchange.Accepted rightFiles size link)
    (readied :
      Link.Readied ⟨left, link.right.withOutbox outbox⟩ → link.Readied)
    (announced :
      left.coordinator.announced = link.left.coordinator.announced)
    (notices :
      ∀ notice ∈ left.notices,
        notice ∈ link.left.notices ∨ notice.offer? = none)
    (stream :
      ∃ bytes, left.fileOut = link.left.fileOut ++ bytes ∧
        left.fileSent = link.left.fileSent ++ bytes) :
    exchange.Accepted rightFiles size
      ⟨left, link.right.withOutbox outbox⟩ where
  sole := accepted.sole
  offered := by
    change left.coordinator.announced ≠ []
    rw [announced]
    exact accepted.offered
  taken := by
    intro notice member
    obtain earlier | noOffer := notices notice member
    · exact accepted.taken notice earlier
    · exact noOffer
  unheld := accepted.unheld
  course :=
    accepted.course.of_same rfl (fun _ member => member) readied Iff.rfl
      Iff.rfl
  consumed := by
    intro bytes took
    obtain ⟨more, out, sent⟩ := stream
    change left.fileSent = bytes ++ left.fileOut
    rw [out, sent, accepted.consumed bytes took, List.append_assoc]
  running := accepted.running

/-- Behind the accept, the loop of the sending side tells nothing but
replies. -/
theorem offeringEffect_replies
    {peer next : Peer} {answer : Option Answer} {faults : Faults}
    (announced : next.coordinator.announced = peer.coordinator.announced)
    (effect : OfferingEffect peer answer faults next.offering) :
    ∀ notice ∈ next.notices,
      notice ∈ peer.notices ∨ notice.offer? = none := by
  intro notice member
  change notice ∈ next.offering.notices at member
  have isAnnounced :
      next.offering.announced = peer.coordinator.announced := announced
  cases effect with
  | quiet noAnswer isNext =>
      rw [isNext] at member
      exact Or.inl member
  | announced pending size noAnswer measured isNext =>
      rw [isNext] at isAnnounced
      cases List.append_right_eq_self.mp isAnnounced
  | started taken pending isTaken waits fromZero isNext =>
      rw [isNext] at member
      exact Or.inl member
  | confirmed number offset prefixHash pending isTaken waits positive same
      isNext =>
      rw [isNext] at member
      obtain earlier | new := List.mem_append.mp member
      · exact Or.inl earlier
      · rw [List.mem_singleton.mp new]
        exact Or.inr rfl
  | refuted number offset prefixHash pending isTaken waits positive other
      isNext =>
      rw [isNext] at member
      obtain earlier | new := List.mem_append.mp member
      · exact Or.inl earlier
      · rw [List.mem_singleton.mp new]
        exact Or.inr rfl

end Sending

/-! ## Steps of the receiving side -/

/-- An accept takes an offer: it is no reply. -/
theorem message_of_applied
    {peer : Peer} {label : PeerLabel} {applied : AppliedAccept}
    (isApplied : peer.applied label = some applied) :
    label.message ≠ some .resumeOk ∧
      label.message ≠ some .restartFromZero := by
  unfold Peer.applied at isApplied
  split at isApplied
  · exact ⟨nofun, nofun⟩
  · exact ⟨nofun, nofun⟩
  · cases isApplied

theorem mem_noted
    {handled : List ControlMessage} {message : ControlMessage}
    {taken : Option ControlMessage} (other : taken ≠ some message) :
    message ∈ handled ++ taken.toList ↔ message ∈ handled := by
  rw [List.mem_append]
  refine or_iff_left ?_
  intro member
  exact other (Option.mem_toList.mp member)

section Receiving

variable {rightFiles leftFiles : Files} {exchange : Exchange} {size : Nat}
  {link : Link} {right : Peer} {outbox : List Letter} {label : PeerLabel}
  {faults : Faults}

/-- Before the accept, a reply finds no receive that waits for it. -/
theorem Link.Bound.noReply
    (bound : link.Bound)
    (noneWaits : link.right.coordinator.pendingResumeRecv = none)
    {notice : Notice} {rest : List Notice}
    (notices : link.left.notices = notice :: rest) :
    notice.offer? ≠ none := by
  intro noOffer
  obtain ⟨job, waits⟩ := bound.replying notices noOffer
  rw [noneWaits] at waits
  cases waits

theorem Link.Unaccepted.noneWaits
    (unaccepted : link.Unaccepted rightFiles) :
    link.right.coordinator.pendingResumeRecv = none ∧
      link.right.recvQueue = [] := by
  obtain ⟨noneWaits, noneQueued, -⟩ :=
    unfinished_eq_nil.mp unaccepted.atRest
  exact ⟨noneWaits, noneQueued⟩

/-- The loop of the receiving side goes on without an accept. -/
theorem Link.Unaccepted.receiving
    (unaccepted : link.Unaccepted rightFiles) (bound : link.Bound)
    (isLoop : label.isLoop = true)
    (notices :
      link.left.notices =
        label.notice?.toList ++ (link.left.withOutbox outbox).notices)
    (noAccept : link.right.applied label = none)
    (taken : peerStep link.right label = some right)
    (effect : AnsweringEffect link.right label.notice? faults right) :
    Link.Unaccepted rightFiles ⟨link.left.withOutbox outbox, right⟩ := by
  obtain ⟨noneWaits, noneQueued⟩ := unaccepted.noneWaits
  have handled := loopStep_handled isLoop taken
  have sameSide : right.recvSide = link.right.recvSide := by
    obtain loop | ⟨recvLabel, isRecv, -⟩ := peerStep_effect taken
    · generalize right.recvSide = side at loop
      cases loop with
      | quiet _ => rfl
      | accepted applied faults side isApplied _ _ =>
          rw [noAccept] at isApplied
          cases isApplied
      | resumed job _ _ waits =>
          rw [noneWaits] at waits
          cases waits
      | restarted job _ _ waits =>
          rw [noneWaits] at waits
          cases waits
      | recreated job partPath created _ _ waits _ _ =>
          rw [noneWaits] at waits
          cases waits
    · rw [isRecv] at isLoop
      cases isLoop
  have sameQueue : right.recvQueue = [] :=
    (congrArg RecvSide.recvQueue sameSide).trans noneQueued
  have sameAnswers : right.answers = link.right.answers := by
    have queued {job : RecvJob}
        (isQueue : right.recvQueue = link.right.recvQueue ++ [job]) :
        False := by
      rw [sameQueue] at isQueue
      simp at isQueue
    cases effect with
    | quiet noOffer isNext => exact congrArg Answering.answers isNext
    | held offer isOffer isNext => exact congrArg Answering.answers isNext
    | accepted offer job grants isFor fromZero isNext =>
        exact (queued (congrArg Answering.recvQueue isNext)).elim
    | resumed offer job grants isFor positive fits isNext =>
        have waits : right.coordinator.pendingResumeRecv = some job :=
          congrArg Answering.waiting isNext
        have same :
            right.coordinator.pendingResumeRecv =
              link.right.coordinator.pendingResumeRecv :=
          congrArg RecvSide.pendingResumeRecv sameSide
        rw [same, noneWaits] at waits
        cases waits
    | withdrawn noNotice isNext => exact congrArg Answering.answers isNext
    | confirmed job isConfirmation waits isNext =>
        rw [noneWaits] at waits
        cases waits
    | restarted told job isRestart waits isNext =>
        rw [noneWaits] at waits
        cases waits
  -- A reply would find a receive that waits.
  have noReply {notice : Notice} (isNotice : label.notice? = some notice) :
      notice.offer? ≠ none := by
    rw [isNotice] at notices
    exact bound.noReply noneWaits notices
  have notConfirmed : label.message ≠ some .resumeOk := by
    intro isMessage
    exact noReply (notice?_resumeOk.mpr isMessage) rfl
  have notRestarted : label.message ≠ some .restartFromZero := by
    intro isMessage
    obtain ⟨told, isNotice⟩ := notice?_restart.mpr isMessage
    exact noReply isNotice rfl
  constructor
  case files => exact (congrArg RecvSide.files sameSide).trans unaccepted.files
  case atRest =>
    change right.recvSide.unfinished = []
    rw [sameSide]
    exact unaccepted.atRest
  case idle => exact (congrArg RecvSide.receiver sameSide).trans unaccepted.idle
  case receipts =>
    exact (congrArg RecvSide.receipts sameSide).trans unaccepted.receipts
  case unready =>
    rintro (isHandled | ⟨number, isAnswer⟩)
    · exact unaccepted.unready (Or.inl isHandled)
    · change .ready number ∈ right.answers at isAnswer
      rw [sameAnswers] at isAnswer
      exact unaccepted.unready (Or.inr ⟨number, isAnswer⟩)
  case unconfirmed =>
    change .resumeOk ∉ right.handled
    rw [handled, mem_noted notConfirmed]
    exact unaccepted.unconfirmed
  case unrestarted =>
    change .restartFromZero ∉ right.handled
    rw [handled, mem_noted notRestarted]
    exact unaccepted.unrestarted
  case untaken => exact unaccepted.untaken

/-- An accept is answered at once. -/
theorem Link.Unaccepted.answers
    (unaccepted : link.Unaccepted rightFiles) {applied : AppliedAccept}
    (accept :
      AcceptEffect applied faults link.right.recvSide right.recvSide)
    (effect : AnsweringEffect link.right label.notice? faults right) :
    ∃ answer, right.answers = link.right.answers ++ [answer] ∧
      (right.coordinator.pendingResumeRecv ≠ none →
        ∀ number, answer ≠ .ready number) := by
  obtain ⟨noneWaits, noneQueued⟩ := unaccepted.noneWaits
  -- The accept has left a receive behind.
  have changed
      (sameWaiting :
        right.coordinator.pendingResumeRecv =
          link.right.coordinator.pendingResumeRecv)
      (sameQueue : right.recvQueue = link.right.recvQueue) : False := by
    obtain ⟨-, job, isQueue, -⟩ | ⟨-, job, waits, -⟩ :=
      acceptEffect_job accept
    · change right.recvQueue = link.right.recvQueue ++ [job] at isQueue
      rw [sameQueue] at isQueue
      cases List.append_right_eq_self.mp isQueue.symm
    · change right.coordinator.pendingResumeRecv = some job at waits
      rw [sameWaiting, noneWaits] at waits
      cases waits
  cases effect with
  | quiet noOffer isNext =>
      exact
        (changed (congrArg Answering.waiting isNext)
          (congrArg Answering.recvQueue isNext)).elim
  | held offer isOffer isNext =>
      exact
        (changed (congrArg Answering.waiting isNext)
          (congrArg Answering.recvQueue isNext)).elim
  | accepted offer job grants isFor fromZero isNext =>
      have sameWaiting :
          right.coordinator.pendingResumeRecv =
            link.right.coordinator.pendingResumeRecv :=
        congrArg Answering.waiting isNext
      rw [noneWaits] at sameWaiting
      exact
        ⟨_, congrArg Answering.answers isNext,
          fun waits => absurd sameWaiting waits⟩
  | resumed offer job grants isFor positive fits isNext =>
      exact ⟨_, congrArg Answering.answers isNext, fun _ => nofun⟩
  | withdrawn noNotice isNext =>
      exact
        (changed (congrArg Answering.waiting isNext)
          (congrArg Answering.recvQueue isNext)).elim
  | confirmed job isConfirmation waits isNext =>
      rw [noneWaits] at waits
      cases waits
  | restarted told job isRestart waits isNext =>
      rw [noneWaits] at waits
      cases waits

/-- The offer is accepted. -/
theorem Link.Unaccepted.accepting
    (unaccepted : link.Unaccepted rightFiles)
    (isLoop : label.isLoop = true)
    (isApplied : link.right.applied label = some (exchange.applied size))
    (cuts : label.faults.truncate = false)
    (taken : peerStep link.right label = some right)
    (effect : AnsweringEffect link.right label.notice? label.faults right)
    (after :
      exchange.Underway leftFiles ⟨link.left.withOutbox outbox, right⟩) :
    exchange.Accepted rightFiles size
      ⟨link.left.withOutbox outbox, right⟩ := by
  obtain ⟨noneWaits, noneQueued⟩ := unaccepted.noneWaits
  obtain ⟨notConfirmed, notRestarted⟩ := message_of_applied isApplied
  have handled := loopStep_handled isLoop taken
  have accept := peerStep_accepts isApplied taken
  obtain ⟨sameReceiver, sameReceipts⟩ := acceptEffect_task accept
  have idle : right.receiver = .idle := sameReceiver.trans unaccepted.idle
  have noReceipts : right.receipts = [] :=
    sameReceipts.trans unaccepted.receipts
  obtain ⟨answer, answers, isResume⟩ := unaccepted.answers accept effect
  have isAnswered : answer ∈ right.answers := by
    rw [answers]
    exact List.mem_append_right _ List.mem_cons_self
  obtain ⟨unheld, noNotices⟩ := after.alone isAnswered
  have unconfirmed : .resumeOk ∉ right.handled := by
    rw [handled, mem_noted notConfirmed]
    exact unaccepted.unconfirmed
  have unrestarted : .restartFromZero ∉ right.handled := by
    rw [handled, mem_noted notRestarted]
    exact unaccepted.unrestarted
  constructor
  case sole =>
    have sole :=
      acceptEffect_sole unaccepted.atRest
        (fun fails => by
          rw [cuts] at fails
          cases fails) accept
    have sameFiles : link.right.recvSide.files = rightFiles :=
      unaccepted.files
    have noneBefore : link.right.recvSide.receipts = [] :=
      unaccepted.receipts
    rw [sameFiles, noneBefore] at sole
    exact sole
  case offered =>
    intro isEmpty
    have speaks :
        answer.number ∈
          (Link.handshake ⟨link.left.withOutbox outbox, right⟩).trail := by
      have member : answer.number ∈ right.answers.map Answer.number :=
        List.mem_map_of_mem isAnswered
      simp only [Handshake.trail, List.mem_append]
      exact Or.inl (Or.inl (Or.inl member))
    have isOne := (after.number_of_trail speaks).2
    rw [isEmpty] at isOne
    cases isOne
  case taken =>
    intro notice member
    rw [noNotices] at member
    cases member
  case unheld => exact unheld
  case course =>
    obtain ⟨sameWaiting, job, isQueue, fromZero⟩ | ⟨-, job, waits, kept⟩ :=
      acceptEffect_job accept
    · refine
        Link.Course.fromZero (sameWaiting.trans noneWaits) unconfirmed ?_
      have isSettled : right.recvSide.settled = [job] := by
        have noneQueued : link.right.recvSide.recvQueue = [] := noneQueued
        rw [RecvSide.settled, isQueue, noneQueued]
        change [] ++ [job] ++ right.receiver.job?.toList ++
          right.receipts.map _ = [job]
        rw [idle, noReceipts]
        rfl
      intro other member
      change other ∈ right.recvSide.settled at member
      rw [isSettled] at member
      rw [List.mem_singleton.mp member]
      exact fromZero
    · have sameFiles : link.right.recvSide.files = rightFiles :=
        unaccepted.files
      rw [sameFiles] at kept
      refine
        Link.Course.waiting job waits kept ?_ unconfirmed unrestarted
      have isWaiting : right.coordinator.pendingResumeRecv ≠ none := by
        change right.recvSide.pendingResumeRecv ≠ none
        rw [waits]
        intro isNone
        cases isNone
      rintro (isHandled | ⟨number, isReady⟩)
      · exact unaccepted.unready (Or.inl isHandled)
      · change .ready number ∈ right.answers at isReady
        rw [answers] at isReady
        obtain earlier | new := List.mem_append.mp isReady
        · exact unaccepted.unready (Or.inr ⟨number, earlier⟩)
        · exact
            isResume isWaiting number (List.mem_singleton.mp new).symm
  case consumed =>
    intro bytes took
    have nothing : bytes = [] := by
      cases took with
      | waiting job waits => rfl
      | queued job member => rfl
      | active bytes isTaken =>
          change right.receiver.taken? = some bytes at isTaken
          rw [idle] at isTaken
          cases isTaken
      | completed receipt member =>
          change receipt ∈ right.receipts at member
          rw [noReceipts] at member
          cases member
    rw [nothing]
    exact unaccepted.untaken
  case running => exact fun _ => noReceipts

/-- Behind the accept nothing is left to be accepted. -/
theorem Exchange.Accepted.noAccept
    (accepted : exchange.Accepted rightFiles size link)
    (notices :
      link.left.notices =
        label.notice?.toList ++ (link.left.withOutbox outbox).notices) :
    link.right.applied label = none := by
  cases isApplied : link.right.applied label with
  | none => rfl
  | some applied =>
      unfold Peer.applied at isApplied
      split at isApplied
      · rename_i name size resume checksum number faults
        have noOffer :=
          accepted.taken (.offer number name size)
            (by
              rw [notices]
              exact List.mem_cons_self)
        cases noOffer
      · split at isApplied
        · rename_i name size isName isSize
          have unheld := accepted.unheld
          rw [Peer.held, isName, isSize] at unheld
          cases unheld
        · cases isApplied
      · cases isApplied

/-- An offer that is held or on its way would not have been accepted. -/
theorem Exchange.Accepted.noGrant
    (accepted : exchange.Accepted rightFiles size link)
    (notices :
      link.left.notices =
        label.notice?.toList ++ (link.left.withOutbox outbox).notices)
    {offer : HeldOffer} : ¬link.right.Grants label.notice? offer := by
  rintro (isNotice | ⟨-, isHeld⟩)
  · have isNone :=
      accepted.taken offer.notice
        (by
          rw [notices, isNotice]
          exact List.mem_cons_self)
    cases isNone
  · rw [accepted.unheld] at isHeld
    cases isHeld

/-- A step that settles nothing and answers nothing. -/
theorem Exchange.Accepted.course_quiet
    (accepted : exchange.Accepted rightFiles size link)
    (isLoop : label.isLoop = true)
    (taken : peerStep link.right label = some right)
    (sameWaiting :
      right.coordinator.pendingResumeRecv =
        link.right.coordinator.pendingResumeRecv)
    (sameQueue : right.recvQueue = link.right.recvQueue)
    (sameAnswers : right.answers = link.right.answers)
    (silent : label.notice? = none) :
    Link.Course ((exchange.applied size).Keeps rightFiles)
      ⟨link.left.withOutbox outbox, right⟩ := by
  have handled := loopStep_handled isLoop taken
  have tasks := loopStep_taskSide isLoop taken
  have sameReceiver : right.receiver = link.right.receiver :=
    congrArg TaskSide.receiver tasks
  have sameReceipts : right.receipts = link.right.receipts :=
    congrArg TaskSide.receipts tasks
  have notConfirmed : label.message ≠ some .resumeOk := by
    intro isMessage
    rw [notice?_resumeOk.mpr isMessage] at silent
    cases silent
  have notRestarted : label.message ≠ some .restartFromZero := by
    intro isMessage
    obtain ⟨told, isNotice⟩ := notice?_restart.mpr isMessage
    rw [isNotice] at silent
    cases silent
  refine accepted.course.of_same sameWaiting ?_ ?_ ?_ ?_
  · intro job member
    change
      job ∈
        right.recvQueue ++ right.receiver.job?.toList ++
          right.receipts.map _ at member
    rw [sameQueue, sameReceiver, sameReceipts] at member
    exact member
  · rintro (isHandled | ⟨number, isAnswer⟩)
    · exact Or.inl isHandled
    · change .ready number ∈ right.answers at isAnswer
      rw [sameAnswers] at isAnswer
      exact Or.inr ⟨number, isAnswer⟩
  · change .resumeOk ∈ right.handled ↔ _
    rw [handled, mem_noted notConfirmed]
  · change .restartFromZero ∈ right.handled ↔ _
    rw [handled, mem_noted notRestarted]

/-- The receive that waited is the only one that is left. -/
theorem Exchange.Accepted.settled_of_waiting
    (accepted : exchange.Accepted rightFiles size link)
    (isLoop : label.isLoop = true)
    (taken : peerStep link.right label = some right) {job other : RecvJob}
    (waits : link.right.coordinator.pendingResumeRecv = some job)
    (isQueue : right.recvQueue = link.right.recvQueue ++ [other]) :
    right.recvSide.settled = [other] := by
  have tasks := loopStep_taskSide isLoop taken
  have sameReceiver : right.receiver = link.right.receiver :=
    congrArg TaskSide.receiver tasks
  have sameReceipts : right.receipts = link.right.receipts :=
    congrArg TaskSide.receipts tasks
  obtain ⟨noneQueued, noneActive, noReceipts⟩ :=
    accepted.sole.waiting waits
  have noneQueued : link.right.recvQueue = [] := noneQueued
  have noneActive : link.right.receiver.job? = none := noneActive
  have noReceipts : link.right.receipts = [] := noReceipts
  change
    right.recvQueue ++ right.receiver.job?.toList ++
      right.receipts.map _ = [other]
  rw [isQueue, sameReceiver, sameReceipts, noneQueued, noneActive,
    noReceipts]
  rfl

/-- The receive that waited goes on behind what is kept. -/
theorem Exchange.Accepted.course_confirmed
    (accepted : exchange.Accepted rightFiles size link)
    (isLoop : label.isLoop = true)
    (taken : peerStep link.right label = some right) {job : RecvJob}
    (isMessage : label.message = some .resumeOk)
    (waits : link.right.coordinator.pendingResumeRecv = some job)
    (noneWaits : right.coordinator.pendingResumeRecv = none)
    (isQueue : right.recvQueue = link.right.recvQueue ++ [job])
    (sameAnswers : right.answers = link.right.answers) :
    Link.Course ((exchange.applied size).Keeps rightFiles)
      ⟨link.left.withOutbox outbox, right⟩ := by
  have handled := loopStep_handled isLoop taken
  cases accepted.course with
  | fromZero noneWaits _ _ =>
      rw [noneWaits] at waits
      cases waits
  | waiting other isWaiting isKept notReady _ notRestarted =>
      rw [waits] at isWaiting
      rw [← Option.some.inj isWaiting] at isKept
      refine Link.Course.resumed noneWaits ?_ ?_ ?_ ?_
      · rintro (isHandled | ⟨number, isAnswer⟩)
        · exact notReady (Or.inl isHandled)
        · change .ready number ∈ right.answers at isAnswer
          rw [sameAnswers] at isAnswer
          exact notReady (Or.inr ⟨number, isAnswer⟩)
      · change .restartFromZero ∉ right.handled
        rw [handled, isMessage]
        simp [notRestarted]
      · change .resumeOk ∈ right.handled
        rw [handled, isMessage]
        exact List.mem_append_right _ List.mem_cons_self
      · intro settledJob member
        change settledJob ∈ right.recvSide.settled at member
        rw [accepted.settled_of_waiting isLoop taken waits isQueue]
          at member
        rw [List.mem_singleton.mp member]
        exact isKept
  | resumed noneWaits _ _ _ _ =>
      rw [noneWaits] at waits
      cases waits

/-- The receive that waited starts again from zero. -/
theorem Exchange.Accepted.course_restarted
    (accepted : exchange.Accepted rightFiles size link)
    (isLoop : label.isLoop = true)
    (taken : peerStep link.right label = some right) {job other : RecvJob}
    (isMessage : label.message = some .restartFromZero)
    (waits : link.right.coordinator.pendingResumeRecv = some job)
    (noneWaits : right.coordinator.pendingResumeRecv = none)
    (isQueue : right.recvQueue = link.right.recvQueue ++ [other])
    (fromZero : other.resumeOffset = 0) :
    Link.Course ((exchange.applied size).Keeps rightFiles)
      ⟨link.left.withOutbox outbox, right⟩ := by
  have handled := loopStep_handled isLoop taken
  cases accepted.course with
  | fromZero noneWaits _ _ =>
      rw [noneWaits] at waits
      cases waits
  | waiting _ _ _ _ notConfirmed _ =>
      refine Link.Course.fromZero noneWaits ?_ ?_
      · change .resumeOk ∉ right.handled
        rw [handled, isMessage]
        simp [notConfirmed]
      · intro settledJob member
        change settledJob ∈ right.recvSide.settled at member
        rw [accepted.settled_of_waiting isLoop taken waits isQueue]
          at member
        rw [List.mem_singleton.mp member]
        exact fromZero
  | resumed noneWaits _ _ _ _ =>
      rw [noneWaits] at waits
      cases waits

/-- What a step of the loop leaves behind is the receive that was settled, or
the one that waited. -/
theorem Exchange.Accepted.course_receiving
    (accepted : exchange.Accepted rightFiles size link)
    (bound : link.Bound) (isLoop : label.isLoop = true)
    (notices :
      link.left.notices =
        label.notice?.toList ++ (link.left.withOutbox outbox).notices)
    (taken : peerStep link.right label = some right)
    (effect : AnsweringEffect link.right label.notice? faults right) :
    Link.Course ((exchange.applied size).Keeps rightFiles)
      ⟨link.left.withOutbox outbox, right⟩ := by
  cases effect with
  | quiet noOffer isNext =>
      refine
        accepted.course_quiet isLoop taken
          (congrArg Answering.waiting isNext)
          (congrArg Answering.recvQueue isNext)
          (congrArg Answering.answers isNext) ?_
      cases isNotice : label.notice? with
      | none => rfl
      | some notice =>
          obtain ⟨isReply, noneWaits⟩ := noOffer notice isNotice
          rw [isNotice] at notices
          exact absurd isReply (bound.noReply noneWaits notices)
  | held offer isOffer isNext =>
      exact (accepted.noGrant notices (Or.inl isOffer)).elim
  | accepted offer job grants isFor fromZero isNext =>
      exact (accepted.noGrant notices grants).elim
  | resumed offer job grants isFor positive fits isNext =>
      exact (accepted.noGrant notices grants).elim
  | withdrawn noNotice isNext =>
      exact
        accepted.course_quiet isLoop taken
          (congrArg Answering.waiting isNext)
          (congrArg Answering.recvQueue isNext)
          (congrArg Answering.answers isNext) noNotice
  | confirmed job isConfirmation waits isNext =>
      exact
        accepted.course_confirmed isLoop taken
          (notice?_resumeOk.mp isConfirmation) waits
          (congrArg Answering.waiting isNext)
          (congrArg Answering.recvQueue isNext)
          (congrArg Answering.answers isNext)
  | restarted told job isRestart waits isNext =>
      exact
        accepted.course_restarted isLoop taken
          (notice?_restart.mp ⟨told, isRestart⟩) waits
          (congrArg Answering.waiting isNext)
          (congrArg Answering.recvQueue isNext) rfl

/-- The loop of the receiving side goes on behind the accept. -/
theorem Exchange.Accepted.receiving
    (accepted : exchange.Accepted rightFiles size link)
    (bound : link.Bound) (isLoop : label.isLoop = true)
    (notices :
      link.left.notices =
        label.notice?.toList ++ (link.left.withOutbox outbox).notices)
    (taken : peerStep link.right label = some right)
    (effect : AnsweringEffect link.right label.notice? faults right) :
    exchange.Accepted rightFiles size
      ⟨link.left.withOutbox outbox, right⟩ := by
  have noAccept := accepted.noAccept notices
  have tasks := loopStep_taskSide isLoop taken
  have offers := accepted.taken
  rw [notices] at offers
  constructor
  case sole => exact peerStep_sole accepted.sole noAccept taken
  case offered => exact accepted.offered
  case taken =>
    exact fun notice member =>
      offers notice (List.mem_append_right _ member)
  case unheld =>
    have nothing : ∀ offer, right.held = some offer → False := by
      refine
        @answeringEffect_held (fun _ => False) _ _ _ _ ?_ ?_ effect
      · intro offer isHeld
        rw [accepted.unheld] at isHeld
        cases isHeld
      · intro offer isNotice
        rw [isNotice] at offers
        cases offers offer.notice List.mem_cons_self
    exact Option.eq_none_iff_forall_ne_some.mpr nothing
  case course =>
    exact accepted.course_receiving bound isLoop notices taken effect
  case consumed =>
    intro bytes took
    obtain loop | ⟨recvLabel, isRecv, -⟩ := peerStep_effect taken
    · exact
        accepted.consumed bytes (loopEffect_took noAccept loop bytes took)
    · rw [isRecv] at isLoop
      cases isLoop
  case running =>
    have sameReceiver : right.receiver = link.right.receiver :=
      congrArg TaskSide.receiver tasks
    have sameReceipts : right.receipts = link.right.receipts :=
      congrArg TaskSide.receipts tasks
    change right.receiver = .stopped → right.receipts = []
    rw [sameReceiver, sameReceipts]
    exact accepted.running

/-- The receive task takes a step; `rest` is what it leaves on the stream. -/
theorem Exchange.Accepted.task
    {label : RecvLabel} {rest : List UInt8}
    (accepted : exchange.Accepted rightFiles size link)
    (stepped : link.right.recvStep label = some right)
    (takes :
      (∀ chunk, label ≠ .receive chunk) ∧ rest = link.left.fileOut ∨
        ∃ chunk,
          label = .receive chunk ∧ link.left.fileOut = chunk ++ rest) :
    exchange.Accepted rightFiles size
      ⟨link.left.withFileOut rest, right⟩ := by
  have effect := recvStep_effect stepped
  have answering := recvStep_answering stepped
  have handled := recvStep_handled stepped
  have sameAnswers : right.answers = link.right.answers :=
    congrArg Answering.answers answering
  constructor
  case sole => exact taskEffect_sole accepted.sole effect
  case offered => exact accepted.offered
  case taken => exact accepted.taken
  case unheld =>
    exact (congrArg Answering.held answering).trans accepted.unheld
  case course =>
    refine
      accepted.course.of_same (congrArg Answering.waiting answering)
        (taskEffect_settled effect) ?_ ?_ ?_
    · rintro (isHandled | ⟨number, isAnswer⟩)
      · exact Or.inl isHandled
      · change .ready number ∈ right.answers at isAnswer
        rw [sameAnswers] at isAnswer
        exact Or.inr ⟨number, isAnswer⟩
    · change .resumeOk ∈ right.handled ↔ _
      rw [handled]
    · change .restartFromZero ∈ right.handled ↔ _
      rw [handled]
  case consumed =>
    intro bytes took
    change link.left.fileSent = bytes ++ rest
    obtain ⟨notReceive, isRest⟩ | ⟨chunk, isLabel, isFront⟩ := takes
    · rw [isRest]
      exact
        accepted.consumed bytes (taskEffect_took effect notReceive bytes took)
    · rw [isLabel] at stepped
      obtain ⟨earlier, before, isBytes⟩ :=
        receive_took accepted.sole stepped bytes took
      rw [accepted.consumed earlier before, isFront, isBytes,
        List.append_assoc]
  case running =>
    intro isStopped
    -- Only a receive that is under way stops the task.
    have stops {job : RecvJob} (isActive : link.right.receiver.job? = some job)
        (receipts : right.receipts = link.right.receipts) :
        right.receipts = [] := by
      obtain ⟨-, -, noReceipts⟩ := accepted.sole.active isActive
      exact receipts.trans noReceipts
    change right.receiver = .stopped at isStopped
    change right.receipts = []
    cases effect with
    | refused job files isOpening =>
        exact stops (congrArg RecvPhase.job? isOpening) rfl
    | seekFailed job files opened isOpening =>
        exact stops (congrArg RecvPhase.job? isOpening) rfl
    | gaveUp current phase => exact stops (congrArg RecvPhase.job? phase) rfl
    | rejected current rest phase =>
        exact stops (congrArg RecvPhase.job? phase) rfl
    | reported current => exact accepted.running isStopped
    | _ => cases isStopped

end Receiving

end Quiczilla
