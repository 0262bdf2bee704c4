import Quiczilla.LinkRoles
import Quiczilla.Negotiation

/-!
# The link goes through the handshake

The messages of an offer and of its answer carry no number.  While every answer
is taken for the last offer, each step of the link leaves the handshake as it
is or is one of its steps.
-/

namespace Quiczilla

open Foundation

/-- The handshake of an offering and an answering side. -/
def handshakeOf (offering : Offering) (answering : Answering) :
    Handshake where
  announced := offering.announced.length
  pending := offering.pending.isSome
  notices := offering.notices
  offered := answering.held.map HeldOffer.number
  waiting :=
    answering.waiting.map fun job => (job.offer, job.resumeOffset)
  answers := answering.answers

def Link.handshake (link : Link) : Handshake :=
  handshakeOf link.left.offering link.right.answering

/-- An answer that the sender takes is for its last offer. -/
def Link.AnswersLast (link : Link) : LinkLabel → Prop
  | .leftControl _ =>
      ∀ answer ∈ link.right.outbox.head?.bind Letter.answer?,
        answer.number + 1 = link.left.coordinator.announced.length
  | _ => True

/-- Nothing speaks for an offer while none is pending. -/
def Handshake.Quiet (handshake : Handshake) : Prop :=
  handshake.pending = false → handshake.trail = []

theorem handshakeStep_quiet
    {handshake next : Handshake} (sound : handshake.Sound)
    (quiet : handshake.Quiet) (step : HandshakeStep handshake next) :
    next.Quiet := by
  intro notPending
  have empty {others : Handshake}
      (pending : others.pending = handshake.pending)
      (notPending : others.pending = false) :
      handshake.answers = [] ∧
        handshake.notices.filterMap Notice.restart? = [] ∧
          handshake.offered = none ∧
            handshake.notices.filterMap Notice.offer? = [] := by
    have nothing := quiet (pending.symm.trans notPending)
    simpa [Handshake.trail, and_assoc] using nothing
  cases step with
  | announced name size => cases notPending
  | offered number name size rest notices =>
      obtain ⟨_, _, _, noOffer⟩ := empty rfl notPending
      simp [notices, Notice.offer?] at noOffer
  | offerAccepted number name size rest notices =>
      obtain ⟨_, _, _, noOffer⟩ := empty rfl notPending
      simp [notices, Notice.offer?] at noOffer
  | offerResumed number name size offset prefixHash rest notices =>
      obtain ⟨_, _, _, noOffer⟩ := empty rfl notPending
      simp [notices, Notice.offer?] at noOffer
  | accepted number isOffered =>
      obtain ⟨_, _, noneOffered, _⟩ := empty rfl notPending
      rw [isOffered] at noneOffered
      cases noneOffered
  | resumed number offset prefixHash isOffered =>
      obtain ⟨_, _, noneOffered, _⟩ := empty rfl notPending
      rw [isOffered] at noneOffered
      cases noneOffered
  | withdrawn =>
      obtain ⟨noAnswer, noRestart, _, noOffer⟩ := empty rfl notPending
      simp [Handshake.trail, noAnswer, noRestart, noOffer]
  | started answer rest isAnswered isLast =>
      obtain ⟨rfl, offered, notices⟩ := sound.alone isAnswered isLast
      simp [Handshake.trail, offered, notices]
  | confirmed number offset prefixHash rest isAnswered isLast =>
      obtain ⟨rfl, offered, notices⟩ := sound.alone isAnswered isLast
      simp [Handshake.trail, offered, notices, Notice.restart?,
        Notice.offer?]
  | refuted number offset prefixHash rest isAnswered isLast =>
      obtain ⟨noAnswer, _⟩ := empty rfl notPending
      rw [isAnswered] at noAnswer
      cases noAnswer
  | confirmationTaken rest notices =>
      obtain ⟨noAnswer, noRestart, noneOffered, noOffer⟩ :=
        empty rfl notPending
      rw [notices] at noRestart noOffer
      simp only [Notice.restart?, Notice.offer?, List.filterMap_cons]
        at noRestart noOffer
      simp [Handshake.trail, noAnswer, noRestart, noneOffered, noOffer]
  | restartTaken told number offset rest notices waits =>
      obtain ⟨_, noRestart, _, _⟩ := empty rfl notPending
      simp [notices, Notice.restart?] at noRestart

theorem answers_of_outbox
    {peer : Peer} {letter : Letter} {rest : List Letter}
    (outbox : peer.outbox = letter :: rest) :
    peer.answers =
      letter.answer?.toList ++ (peer.withOutbox rest).answers := by
  rw [Peer.answers, outbox, List.filterMap_cons]
  cases letter.answer? <;> rfl

theorem notices_of_outbox
    {peer : Peer} {letter : Letter} {rest : List Letter}
    (outbox : peer.outbox = letter :: rest) :
    peer.notices =
      letter.notice?.toList ++ (peer.withOutbox rest).notices := by
  rw [Peer.notices, outbox, List.filterMap_cons]
  cases letter.notice? <;> rfl

theorem peerStep_control
    {peer next : Peer} {letter : Letter} {faults : Faults}
    (stepped : peerStep peer (.control letter faults) = some next) :
    next = peer.handleControl letter faults := by
  simp only [peerStep] at stepped
  split at stepped <;> cases stepped
  rfl

theorem peerStep_command
    {peer next : Peer} {command : PeerCommand} {faults : Faults}
    (stepped : peerStep peer (.command command faults) = some next) :
    next = peer.handleCommand command faults := by
  simp only [peerStep] at stepped
  split at stepped <;> cases stepped
  rfl

theorem peerStep_ends
    {peer next : Peer} {reason : Option String}
    (stepped : peerStep peer (.loopEnds reason) = some next) :
    next = peer.endLoop reason := by
  simp only [peerStep] at stepped
  split at stepped <;> cases stepped
  rfl

theorem endLoop_offering (peer : Peer) (reason : Option String) :
    (peer.endLoop reason).offering = peer.offering := by
  cases reason <;> rfl

theorem endLoop_answering (peer : Peer) (reason : Option String) :
    (peer.endLoop reason).answering = peer.answering := by
  cases reason <;> rfl

section LoopSteps

variable {peer next : Peer}

theorem commandStep_offering
    {command : PeerCommand} {faults : Faults}
    (sends : command.sends = true)
    (taken : peerStep peer (.command command faults) = some next) :
    OfferingEffect peer none faults next.offering := by
  rw [peerStep_command taken]
  exact handleCommand_offering peer faults sends

theorem controlStep_offering
    {letter : Letter} {faults : Faults} (sends : peer.OnlySends)
    (taken : peerStep peer (.control letter faults) = some next) :
    OfferingEffect peer letter.answer? faults next.offering := by
  rw [peerStep_control taken]
  exact handleControl_offering sends letter faults

theorem endStep_offering
    {reason : Option String} (faults : Faults)
    (taken : peerStep peer (.loopEnds reason) = some next) :
    OfferingEffect peer none faults next.offering := by
  refine OfferingEffect.quiet (fun _ isTaken => by cases isTaken) ?_
  rw [peerStep_ends taken]
  exact endLoop_offering peer reason

theorem commandStep_answering
    {command : PeerCommand} {faults : Faults}
    (receives : command.receives = true)
    (taken : peerStep peer (.command command faults) = some next) :
    AnsweringEffect peer none faults next := by
  rw [peerStep_command taken]
  exact handleCommand_answering peer faults receives

theorem controlStep_answering
    {letter : Letter} {faults : Faults}
    (receives : peer.coordinator.pendingSendPath = none)
    (taken : peerStep peer (.control letter faults) = some next) :
    AnsweringEffect peer letter.notice? faults next := by
  rw [peerStep_control taken]
  exact handleControl_answering receives letter faults

theorem endStep_answering
    {reason : Option String} (faults : Faults)
    (taken : peerStep peer (.loopEnds reason) = some next) :
    AnsweringEffect peer none faults next := by
  refine AnsweringEffect.quiet (fun _ isTaken => by cases isTaken) ?_
  rw [peerStep_ends taken]
  exact endLoop_answering peer reason

end LoopSteps

/-- The receive task takes jobs from the queue and leaves the rest of the
answering side alone. -/
theorem recvStep_answering
    {peer next : Peer} {label : RecvLabel}
    (stepped : peer.recvStep label = some next) :
    next.answering =
      { peer.answering with recvQueue := next.recvQueue } := by
  have told (before : Peer) (message : ControlMessage) (offer : Nat)
      (noAnswer : Letter.answer? ⟨message, offer⟩ = none) :
      (before.send message offer).answering = before.answering := by
    have answers := send_answers before message offer
    rw [noAnswer, Option.toList_none, List.append_nil] at answers
    rw [Peer.answering, answers]
    rfl
  have failed (before : Peer) (status : FileTransferStatus) :
      (before.failReceive status).answering = before.answering :=
    told { before with receiver := .stopped } .receivedFileFailed 0 rfl
  have completed (before : Peer) (verifying : Verifying) (hash : String) :
      (before.completeReceive verifying hash).answering =
        before.answering :=
    told
      { before with
        receiver := .idle
        receipts := before.receipts ++ [⟨verifying, hash⟩] }
      .receivedFileOk verifying.job.offer rfl
  cases recvStep_effect stepped with
  | refused job files => exact failed _ _
  | seekFailed job files opened => exact failed _ _
  | gaveUp receiving => exact failed _ _
  | rejected verifying rest => exact failed _ _
  | completed verifying hash rest => exact completed _ _ _
  | committed verifying hash rest renamed => exact completed _ _ _
  | _ => rfl

/-- The send task takes jobs from the queue and leaves the rest of the
offering side alone. -/
theorem sendStep_offering
    {peer next : Peer} {label : SendLabel}
    (stepped : peer.sendStep label = some next) :
    next.offering =
      { peer.offering with sendQueue := next.sendQueue } := by
  cases sendStep_effect stepped with
  | finished stream inlineHash rehashFails =>
      have notices :=
        send_notices
          (Peer.emit { peer with sender := .idle }
            (.transferProgress stream.bytesTransferred stream.totalBytes
              true))
          (.fileSent (peer.finalHash stream inlineHash rehashFails))
          stream.job.offer
      rw [Peer.offering, notices]
      exact
        congrArg (fun notices => Offering.mk _ _ notices _)
          (List.append_nil _)
  | _ => rfl

/-- The left peer only sends, and the right peer only receives. -/
structure Link.Roles (link : Link) : Prop where
  sends : link.left.OnlySends
  receives : link.right.coordinator.pendingSendPath = none

/-- An answer that arrives finds the offer that waits for it. -/
theorem answer_finds_pending
    {link : Link} {letter : Letter} {rest : List Letter}
    (quiet : link.handshake.Quiet)
    (arrived : link.right.outbox = letter :: rest)
    (nonePending : link.left.coordinator.pendingSendPath = none) :
    letter.answer? = none := by
  cases isAnswer : letter.answer? with
  | none => rfl
  | some answer =>
      have isPending : link.handshake.pending = false := by
        change link.left.coordinator.pendingSendPath.isSome = false
        rw [nonePending]
        rfl
      have nothing := quiet isPending
      have answers : link.handshake.answers = link.right.answers := rfl
      rw [Handshake.trail, answers, answers_of_outbox arrived, isAnswer]
        at nothing
      cases nothing

/-- A step of the offering side that takes no answer announces an offer or is
of no concern to the handshake. -/
theorem offeringEffect_unasked
    {peer : Peer} {faults : Faults} {next : Offering}
    (answering : Answering)
    (effect : OfferingEffect peer none faults next) :
    handshakeOf next answering = handshakeOf peer.offering answering ∨
      HandshakeStep (handshakeOf peer.offering answering)
        (handshakeOf next answering) := by
  cases effect with
  | quiet _ isNext =>
      rw [isNext]
      exact Or.inl rfl
  | announced pending size _ _ isNext =>
      have announced :=
        @HandshakeStep.announced (handshakeOf peer.offering answering)
          (offeredName pending.path) size
      rw [isNext]
      refine Or.inr ?_
      simpa [handshakeOf, Peer.offering] using announced
  | started taken pending isTaken _ _ _ => cases isTaken
  | confirmed number offset prefixHash pending isTaken _ _ _ _ =>
      cases isTaken
  | refuted number offset prefixHash pending isTaken _ _ _ _ =>
      cases isTaken

/-- A step of the offering side that takes an answer for its last offer starts
to send, or replies to an offer to resume. -/
theorem offeringEffect_answered
    {peer : Peer} {faults : Faults} {next : Offering}
    {answering : Answering} {answer : Answer} {rest : List Answer}
    (answers : answering.answers = answer :: rest)
    (isLast : answer.number + 1 = peer.coordinator.announced.length)
    (isPending : peer.coordinator.pendingSendPath ≠ none)
    (effect : OfferingEffect peer (some answer) faults next) :
    HandshakeStep (handshakeOf peer.offering answering)
      (handshakeOf next { answering with answers := rest }) := by
  cases effect with
  | quiet nonePending _ => exact absurd (nonePending answer rfl) isPending
  | announced pending size noAnswer _ _ => cases noAnswer
  | started taken pending isTaken _ _ isNext =>
      rw [isNext]
      exact HandshakeStep.started answer rest answers isLast
  | confirmed number offset prefixHash pending isTaken _ _ _ isNext =>
      cases isTaken
      rw [isNext]
      exact
        HandshakeStep.confirmed number offset prefixHash rest answers
          isLast
  | refuted number offset prefixHash pending isTaken found _ _ isNext =>
      cases isTaken
      have isNumber : peer.lastOffer = number := by
        change number + 1 = _ at isLast
        rw [Peer.lastOffer, ← isLast, Nat.add_sub_cancel]
      have refuted :=
        @HandshakeStep.refuted (handshakeOf peer.offering answering) number
          offset prefixHash rest answers isLast
      rw [isNext, isNumber]
      simpa [handshakeOf, Peer.offering, found] using refuted

theorem leftControl_handshake
    {link : Link} {letter : Letter} {rest : List Letter} {left : Peer}
    {faults : Faults} (roles : link.Roles)
    (quiet : link.handshake.Quiet)
    (last : link.AnswersLast (.leftControl faults))
    (arrived : link.right.outbox = letter :: rest)
    (taken : peerStep link.left (.control letter faults) = some left) :
    Link.handshake ⟨left, link.right.withOutbox rest⟩ = link.handshake ∨
      HandshakeStep link.handshake
        (Link.handshake ⟨left, link.right.withOutbox rest⟩) := by
  have answers := answers_of_outbox arrived
  have effect := controlStep_offering roles.sends taken
  have isHandshake :
      Link.handshake ⟨left, link.right.withOutbox rest⟩ =
        handshakeOf left.offering
          { link.right.answering with
            answers := (link.right.withOutbox rest).answers } := rfl
  rw [isHandshake]
  cases isAnswer : letter.answer? with
  | none =>
      rw [isAnswer] at effect answers
      have same : link.right.answers = (link.right.withOutbox rest).answers :=
        answers
      rw [← same]
      exact offeringEffect_unasked link.right.answering effect
  | some answer =>
      rw [isAnswer] at effect answers
      refine Or.inr (offeringEffect_answered answers ?_ ?_ effect)
      · apply last answer
        rw [arrived]
        exact isAnswer
      · intro nonePending
        rw [answer_finds_pending quiet arrived nonePending] at isAnswer
        cases isAnswer

theorem leftCommand_handshake
    {link : Link} {command : PeerCommand} {left : Peer} {faults : Faults}
    (sends : command.sends = true)
    (taken : peerStep link.left (.command command faults) = some left) :
    Link.handshake ⟨left, link.right⟩ = link.handshake ∨
      HandshakeStep link.handshake (Link.handshake ⟨left, link.right⟩) := by
  have effect := commandStep_offering sends taken
  exact offeringEffect_unasked link.right.answering effect

/-! ## The answering side -/

/-- A command to the answering side answers the offer that it holds, or is of
no concern to the handshake. -/
theorem answeringEffect_unasked
    {peer next : Peer} {faults : Faults} (offering : Offering)
    (effect : AnsweringEffect peer none faults next) :
    handshakeOf offering next.answering =
        handshakeOf offering peer.answering ∨
      HandshakeStep (handshakeOf offering peer.answering)
        (handshakeOf offering next.answering) := by
  have isHeld {offer : HeldOffer} (grants : peer.Grants none offer) :
      (handshakeOf offering peer.answering).offered =
        some offer.number := by
    rcases grants with isNotice | ⟨_, held⟩
    · cases isNotice
    · change peer.held.map HeldOffer.number = some offer.number
      rw [held]
      rfl
  cases effect with
  | quiet _ isNext =>
      rw [isNext]
      exact Or.inl rfl
  | held offer isNotice _ => cases isNotice
  | accepted offer job grants _ _ isNext =>
      rw [isNext]
      exact Or.inr (HandshakeStep.accepted offer.number (isHeld grants))
  | resumed offer job grants isFor _ _ isNext =>
      have resumed :=
        HandshakeStep.resumed offer.number job.resumeOffset
          (next.fingerprint job.targetWritePath faults) (isHeld grants)
      rw [isNext]
      refine Or.inr ?_
      simpa [handshakeOf, Peer.answering, isFor.number] using resumed
  | withdrawn _ isNext =>
      rw [isNext]
      exact Or.inr HandshakeStep.withdrawn
  | confirmed job isNotice _ _ => cases isNotice
  | restarted told job isNotice _ _ => cases isNotice

/-- A notice to the answering side is taken as the handshake says. -/
theorem answeringEffect_told
    {peer next : Peer} {faults : Faults} {offering : Offering}
    {notice : Notice} {rest : List Notice}
    (sound : (handshakeOf offering peer.answering).Sound)
    (notices : offering.notices = notice :: rest)
    (effect : AnsweringEffect peer (some notice) faults next) :
    HandshakeStep (handshakeOf offering peer.answering)
      (handshakeOf { offering with notices := rest } next.answering) := by
  have isNotice {offer : HeldOffer}
      (grants : peer.Grants (some notice) offer) :
      offering.notices =
        .offer offer.number offer.name offer.size :: rest := by
    rcases grants with isNotice | ⟨noNotice, _⟩
    · cases isNotice
      exact notices
    · cases noNotice
  cases effect with
  | quiet noOffer isNext =>
      obtain ⟨isReply, noneWaiting⟩ := noOffer notice rfl
      obtain ⟨_, _, number, offset, waits, _⟩ :=
        sound.replying notice
          (by
            change offering.notices.head? = some notice
            rw [notices]
            rfl)
          isReply
      change
        peer.coordinator.pendingResumeRecv.map
          (fun job => (job.offer, job.resumeOffset)) = _ at waits
      rw [noneWaiting] at waits
      cases waits
  | held offer isOffer isNext =>
      cases isOffer
      rw [isNext]
      exact
        HandshakeStep.offered offer.number offer.name offer.size rest
          notices
  | accepted offer job grants _ _ isNext =>
      rw [isNext]
      exact
        HandshakeStep.offerAccepted offer.number offer.name offer.size rest
          (isNotice grants)
  | resumed offer job grants isFor _ _ isNext =>
      have resumed :=
        @HandshakeStep.offerResumed (handshakeOf offering peer.answering)
          offer.number offer.name offer.size job.resumeOffset
          (next.fingerprint job.targetWritePath faults) rest
          (isNotice grants)
      rw [isNext]
      simpa [handshakeOf, Peer.answering, isFor.number] using resumed
  | withdrawn noNotice _ => cases noNotice
  | confirmed job isConfirmation waits isNext =>
      cases isConfirmation
      rw [isNext]
      exact HandshakeStep.confirmationTaken rest notices
  | restarted told job isRestart waits isNext =>
      cases isRestart
      have isWaiting :
          (handshakeOf offering peer.answering).waiting =
            some (job.offer, job.resumeOffset) := by
        change peer.coordinator.pendingResumeRecv.map _ = _
        rw [waits]
        rfl
      rw [isNext]
      exact
        HandshakeStep.restartTaken told job.offer job.resumeOffset rest
          notices isWaiting

theorem rightControl_handshake
    {link : Link} {letter : Letter} {rest : List Letter} {right : Peer}
    {faults : Faults} (roles : link.Roles)
    (sound : link.handshake.Sound)
    (arrived : link.left.outbox = letter :: rest)
    (taken : peerStep link.right (.control letter faults) = some right) :
    Link.handshake ⟨link.left.withOutbox rest, right⟩ = link.handshake ∨
      HandshakeStep link.handshake
        (Link.handshake ⟨link.left.withOutbox rest, right⟩) := by
  have notices := notices_of_outbox arrived
  have effect := controlStep_answering roles.receives taken
  have isHandshake :
      Link.handshake ⟨link.left.withOutbox rest, right⟩ =
        handshakeOf
          { link.left.offering with
            notices := (link.left.withOutbox rest).notices }
          right.answering := rfl
  rw [isHandshake]
  cases isNotice : letter.notice? with
  | none =>
      rw [isNotice] at effect notices
      have same : link.left.notices = (link.left.withOutbox rest).notices :=
        notices
      rw [← same]
      exact answeringEffect_unasked link.left.offering effect
  | some notice =>
      rw [isNotice] at effect notices
      exact Or.inr (answeringEffect_told sound notices effect)

theorem rightCommand_handshake
    {link : Link} {command : PeerCommand} {right : Peer} {faults : Faults}
    (receives : command.receives = true)
    (taken : peerStep link.right (.command command faults) = some right) :
    Link.handshake ⟨link.left, right⟩ = link.handshake ∨
      HandshakeStep link.handshake (Link.handshake ⟨link.left, right⟩) := by
  have effect := commandStep_answering receives taken
  exact answeringEffect_unasked link.left.offering effect

/-! ## Every step of the link -/

/-- As long as answers are for the last offer, the link goes through the
handshake. -/
theorem linkStep_handshake
    {link next : Link} {label : LinkLabel} (roles : link.Roles)
    (sound : link.handshake.Sound) (quiet : link.handshake.Quiet)
    (last : link.AnswersLast label)
    (stepped : linkStep link label = some next) :
    next.handshake = link.handshake ∨
      HandshakeStep link.handshake next.handshake := by
  cases linkStep_effect stepped with
  | leftCommand command faults left sends taken =>
      exact leftCommand_handshake sends taken
  | leftControl faults letter rest left arrived taken =>
      exact leftControl_handshake roles quiet last arrived taken
  | leftEnds reason left taken =>
      refine Or.inl ?_
      rw [Link.handshake, peerStep_ends taken, endLoop_offering]
      rfl
  | leftSend label left taken =>
      refine Or.inl ?_
      rw [Link.handshake, sendStep_offering taken]
      rfl
  | rightCommand command faults right receives taken =>
      exact rightCommand_handshake receives taken
  | rightControl faults letter rest right arrived taken =>
      exact rightControl_handshake roles sound arrived taken
  | rightEnds reason right taken =>
      refine Or.inl ?_
      rw [Link.handshake, peerStep_ends taken, endLoop_answering]
      rfl
  | received chunk rest right isFront taken =>
      refine Or.inl ?_
      rw [Link.handshake, recvStep_answering taken]
      rfl
  | rightRecv label right notReceive taken =>
      refine Or.inl ?_
      rw [Link.handshake, recvStep_answering taken]
      rfl

end Quiczilla
