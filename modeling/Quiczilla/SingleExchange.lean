import Quiczilla.OfferCompletion
import Quiczilla.TerminalStatus

/-!
# One exchange

One `SendFile` on the sending side and one kind of `AcceptFile` on the
receiving side; everything else is as free as in any run of the link.  With one
offer there is one send, and every answer is for that offer.
-/

namespace Quiczilla

open Foundation

/-- The file that is offered and the accept that takes it. -/
structure Exchange where
  offer : PendingSend
  accept : PendingAccept
  deriving DecidableEq, Repr

/-- The offer as it is accepted. -/
def Exchange.applied (exchange : Exchange) (size : Nat) : AppliedAccept where
  accept := exchange.accept
  name := offeredName exchange.offer.path
  size := size

/-- The commands are those of the exchange. -/
def Exchange.Asks (exchange : Exchange) (link : Link) : LinkLabel → Prop
  | .leftCommand (.sendFile path checksum resume) _ =>
      exchange.offer = ⟨path, checksum, resume⟩ ∧
        link.left.coordinator.announced = []
  | .rightCommand (.acceptFile saveDir checksum resume) _ =>
      exchange.accept = ⟨saveDir, checksum, resume⟩
  | _ => True

instance (exchange : Exchange) (link : Link) (label : LinkLabel) :
    Decidable (exchange.Asks link label) := by
  unfold Exchange.Asks
  split <;> infer_instance

/-- The commands are those of the exchange, and a staging file that is kept can
be cut back. -/
def Exchange.Admits (exchange : Exchange) (link : Link) : LinkLabel → Prop
  | .leftCommand (.sendFile path checksum resume) _ =>
      exchange.offer = ⟨path, checksum, resume⟩ ∧
        link.left.coordinator.announced = []
  | .rightCommand (.acceptFile saveDir checksum resume) faults =>
      exchange.accept = ⟨saveDir, checksum, resume⟩ ∧
        faults.truncate = false
  | .rightControl faults => faults.truncate = false
  | _ => True

instance (exchange : Exchange) (link : Link) (label : LinkLabel) :
    Decidable (exchange.Admits link label) := by
  unfold Exchange.Admits
  split <;> infer_instance

theorem Exchange.asks_of_admits
    {exchange : Exchange} {link : Link} {label : LinkLabel}
    (admitted : exchange.Admits link label) : exchange.Asks link label := by
  cases label with
  | leftCommand command faults => cases command <;> exact admitted
  | rightCommand command faults =>
      cases command with
      | acceptFile saveDir checksum resume => exact admitted.1
      | _ => trivial
  | _ => trivial

/-! ## What has been handled -/

theorem handled_unnegotiated : Unnegotiated Peer.handled where
  coordinator _ _ := rfl
  triggerSend _ _ := rfl
  triggerRecv _ _ := rfl
  touch _ _ _ := rfl
  send _ _ _ _ := rfl
  emit _ _ _ := rfl

/-- The loop notes the message that it takes. -/
theorem loopStep_handled
    {peer next : Peer} {label : PeerLabel} (isLoop : label.isLoop = true)
    (stepped : peerStep peer label = some next) :
    next.handled = peer.handled ++ label.message.toList := by
  cases label with
  | control letter faults =>
      rw [peerStep_control stepped]
      have dispatched :
          (peer.dispatch letter faults).handled = peer.handled := by
        by_cases negotiates : letter.message.negotiates = true
        · exact handled_unnegotiated.dispatch peer negotiates faults
        · obtain ⟨message, offer⟩ := letter
          cases message <;> first | rfl | exact absurd rfl negotiates
      exact congrArg (· ++ [letter.message]) dispatched
  | command command faults =>
      rw [peerStep_command stepped]
      refine Eq.trans ?_ (List.append_nil _).symm
      by_cases negotiates : command.negotiates = true
      · exact handled_unnegotiated.handleCommand peer negotiates faults
      · cases command <;> first | rfl | exact absurd rfl negotiates
  | loopEnds reason =>
      rw [peerStep_ends stepped]
      refine Eq.trans ?_ (List.append_nil _).symm
      cases reason <;> rfl
  | send label => cases isLoop
  | recv label => cases isLoop

theorem sendStep_handled
    {peer next : Peer} {label : SendLabel}
    (stepped : peer.sendStep label = some next) :
    next.handled = peer.handled := by
  cases sendStep_effect stepped <;> rfl

theorem recvStep_handled
    {peer next : Peer} {label : RecvLabel}
    (stepped : peer.recvStep label = some next) :
    next.handled = peer.handled := by
  cases recvStep_effect stepped <;> rfl

/-! ## The sending side -/

/-- Nothing but `SendFile` announces an offer. -/
theorem loopStep_announced
    {peer next : Peer} {label : PeerLabel} (sends : peer.OnlySends)
    (noAccept :
      ∀ command faults, label = .command command faults →
        command.sends = true)
    (isLoop : label.isLoop = true)
    (stepped : peerStep peer label = some next) :
    next.coordinator.announced = peer.coordinator.announced ∨
      ∃ pending faults,
        label =
            .command
              (.sendFile pending.path pending.checksum pending.resume)
              faults ∧
          next.coordinator.pendingSendPath = some pending ∧
            next.coordinator.announced =
              peer.coordinator.announced ++ [pending.path] := by
  cases label with
  | control letter faults =>
      refine Or.inl ?_
      rw [peerStep_control stepped]
      obtain ⟨message, offer⟩ := letter
      change
        (peer.dispatch ⟨message, offer⟩ faults).coordinator.announced = _
      cases message with
      | metadata name size resume checksum =>
          simp only [Peer.dispatch, Peer.handleMetadata, sends.noAccept]
          rfl
      | ready =>
          simp only [Peer.dispatch, Peer.handleReady]
          split <;> rfl
      | resumeReady offset prefixHash =>
          simp only [Peer.dispatch, Peer.handleResumeReady]
          split
          · split
            · split <;> rfl
            · rfl
          · rfl
      | resumeOk =>
          simp only [Peer.dispatch, Peer.handleResumeOk, sends.noResume]
      | restartFromZero =>
          simp only [Peer.dispatch, Peer.handleRestart, sends.noResume]
      | _ => rfl
  | command command faults =>
      rw [peerStep_command stepped]
      cases command with
      | sendFile path checksum resume =>
          simp only [Peer.handleCommand, Peer.handleSendFile]
          split
          · exact Or.inl rfl
          · split
            · exact
                Or.inr ⟨⟨path, checksum, resume⟩, faults, rfl, rfl, rfl⟩
            · exact Or.inl rfl
      | acceptFile saveDir checksum resume => cases noAccept _ _ rfl
      | _ => exact Or.inl rfl
  | loopEnds reason =>
      refine Or.inl ?_
      rw [peerStep_ends stepped]
      cases reason <;> rfl
  | send label => cases isLoop
  | recv label => cases isLoop

/-- There is one offer at most, and one send for it, which starts with nothing
left out. -/
structure Peer.SendsOnce (exchange : Exchange) (peer : Peer) : Prop where
  announced :
    peer.coordinator.announced = [] ∨
      peer.coordinator.announced = [exchange.offer.path]
  asked :
    ∀ pending, peer.coordinator.pendingSendPath = some pending →
      peer.coordinator.announced = [exchange.offer.path] ∧
        pending.path = exchange.offer.path ∧
          pending.checksum = exchange.offer.checksum
  alone : peer.sendQueue.length ≤ 1
  unstarted :
    peer.coordinator.announced = [] ∨
        peer.coordinator.pendingSendPath ≠ none →
      peer.sendQueue = []
  untouched :
    peer.coordinator.announced = [] ∨
        peer.coordinator.pendingSendPath ≠ none ∨ peer.sendQueue ≠ [] →
      peer.sender = .idle ∧ peer.unsent = []

theorem sendsOnce_initial (exchange : Exchange) (files : Files) :
    (Peer.initial files).SendsOnce exchange where
  announced := Or.inl rfl
  asked := nofun
  alone := Nat.zero_le 1
  unstarted _ := rfl
  untouched _ := ⟨rfl, rfl⟩

namespace Peer.SendsOnce

variable {exchange : Exchange} {peer next : Peer}

/-- Nothing that the property is about has changed. -/
theorem of_same
    (once : peer.SendsOnce exchange)
    (announced : next.coordinator.announced = peer.coordinator.announced)
    (pending :
      next.coordinator.pendingSendPath = peer.coordinator.pendingSendPath)
    (queue : next.sendQueue = peer.sendQueue)
    (sender : next.sender = peer.sender)
    (unsent : next.unsent = peer.unsent) :
    next.SendsOnce exchange := by
  constructor
  case announced =>
    rw [announced]
    exact once.announced
  case asked =>
    rw [announced, pending]
    exact once.asked
  case alone =>
    rw [queue]
    exact once.alone
  case unstarted =>
    rw [announced, pending, queue]
    exact once.unstarted
  case untouched =>
    rw [announced, pending, queue, sender, unsent]
    exact once.untouched

/-- The offer waits for its answer. -/
theorem of_waiting
    {pending : PendingSend}
    (announced : next.coordinator.announced = [exchange.offer.path])
    (waits : next.coordinator.pendingSendPath = some pending)
    (isOffer :
      pending.path = exchange.offer.path ∧
        pending.checksum = exchange.offer.checksum)
    (noneQueued : next.sendQueue = [])
    (untouched : next.sender = .idle ∧ next.unsent = []) :
    next.SendsOnce exchange where
  announced := Or.inr announced
  asked := by
    intro other isOther
    rw [waits] at isOther
    rw [← Option.some.inj isOther]
    exact ⟨announced, isOffer⟩
  alone := by
    rw [noneQueued]
    exact Nat.zero_le 1
  unstarted _ := noneQueued
  untouched _ := untouched

/-- The pending offer starts its send. -/
theorem of_started
    (once : peer.SendsOnce exchange) {pending : PendingSend}
    {job : SendJob} (tasks : next.taskSide = peer.taskSide)
    (waits : peer.coordinator.pendingSendPath = some pending)
    (announced : next.coordinator.announced = peer.coordinator.announced)
    (noneWaits : next.coordinator.pendingSendPath = none)
    (queue : next.sendQueue = peer.sendQueue ++ [job]) :
    next.SendsOnce exchange := by
  have notNone : peer.coordinator.pendingSendPath ≠ none := by
    rw [waits]
    nofun
  have noneQueued := once.unstarted (Or.inr notNone)
  have isOne : next.coordinator.announced = [exchange.offer.path] :=
    announced.trans (once.asked pending waits).1
  constructor
  case announced => exact Or.inr isOne
  case asked =>
    rw [noneWaits]
    nofun
  case alone =>
    rw [queue, noneQueued]
    exact Nat.le_refl 1
  case unstarted =>
    rintro (isEmpty | isWaiting)
    · rw [isOne] at isEmpty
      cases isEmpty
    · exact absurd noneWaits isWaiting
  case untouched =>
    intro _
    have before := once.untouched (Or.inr (Or.inl notNone))
    exact
      ⟨(congrArg TaskSide.sender tasks).trans before.1,
        (congrArg TaskSide.unsent tasks).trans before.2⟩

/-- The loop takes an answer, a command or the end of its streams. -/
theorem loop
    {label : PeerLabel} {answer : Option Answer} {faults : Faults}
    (once : peer.SendsOnce exchange) (sends : peer.OnlySends)
    (noAccept :
      ∀ command faults, label = .command command faults →
        command.sends = true)
    (isLoop : label.isLoop = true)
    (admitted :
      ∀ pending faults,
        label =
            .command
              (.sendFile pending.path pending.checksum pending.resume)
              faults →
          exchange.offer = pending ∧ peer.coordinator.announced = [])
    (stepped : peerStep peer label = some next)
    (effect : OfferingEffect peer answer faults next.offering) :
    next.SendsOnce exchange := by
  have tasks := loopStep_taskSide isLoop stepped
  have stays
      (before : peer.sender = .idle ∧ peer.unsent = []) :
      next.sender = .idle ∧ next.unsent = [] :=
    ⟨(congrArg TaskSide.sender tasks).trans before.1,
      (congrArg TaskSide.unsent tasks).trans before.2⟩
  cases effect with
  | quiet noAnswer isNext =>
      exact
        once.of_same (congrArg Offering.announced isNext)
          (congrArg Offering.pending isNext)
          (congrArg Offering.sendQueue isNext)
          (congrArg TaskSide.sender tasks)
          (congrArg TaskSide.unsent tasks)
  | announced pending size noAnswer measured isNext =>
      have isAnnounced :
          next.coordinator.announced =
            peer.coordinator.announced ++ [pending.path] :=
        congrArg Offering.announced isNext
      obtain same | ⟨other, _, isCommand, waits, isOther⟩ :=
        loopStep_announced sends noAccept isLoop stepped
      · rw [same] at isAnnounced
        cases List.self_eq_append_right.mp isAnnounced
      · obtain ⟨isOffer, noneAnnounced⟩ := admitted other _ isCommand
        have untouched := once.untouched (Or.inl noneAnnounced)
        rw [noneAnnounced, ← isOffer] at isOther
        rw [← isOffer] at waits
        exact
          of_waiting isOther waits ⟨rfl, rfl⟩
            ((congrArg Offering.sendQueue isNext).trans
              (once.unstarted (Or.inl noneAnnounced)))
            (stays untouched)
  | started taken pending isTaken waits fromZero isNext =>
      exact
        once.of_started tasks waits (congrArg Offering.announced isNext)
          (congrArg Offering.pending isNext)
          (congrArg Offering.sendQueue isNext)
  | confirmed number offset prefixHash pending isTaken waits positive same
      isNext =>
      exact
        once.of_started tasks waits (congrArg Offering.announced isNext)
          (congrArg Offering.pending isNext)
          (congrArg Offering.sendQueue isNext)
  | refuted number offset prefixHash pending isTaken waits positive other
      isNext =>
      have notNone : peer.coordinator.pendingSendPath ≠ none := by
        rw [waits]
        nofun
      have asked := once.asked pending waits
      have untouched := once.untouched (Or.inr (Or.inl notNone))
      exact
        of_waiting ((congrArg Offering.announced isNext).trans asked.1)
          (congrArg Offering.pending isNext) asked.2
          ((congrArg Offering.sendQueue isNext).trans
            (once.unstarted (Or.inr notNone)))
          (stays untouched)

/-- A step of the send task. -/
theorem send
    {label : SendLabel} (once : peer.SendsOnce exchange)
    (stepped : peer.sendStep label = some next) :
    next.SendsOnce exchange := by
  -- Nothing waits any more once the task has taken its job.
  have begun (sameQueue : next.sendQueue = peer.sendQueue)
      (busy : peer.sender ≠ .idle) : next.SendsOnce exchange := by
    have same := (sendStep_files stepped).2
    have notUntouched :
        ¬(peer.coordinator.announced = [] ∨
          peer.coordinator.pendingSendPath ≠ none ∨
            peer.sendQueue ≠ []) :=
      fun waits => busy (once.untouched waits).1
    constructor
    case announced =>
      rw [same]
      exact once.announced
    case asked =>
      rw [same]
      exact once.asked
    case alone =>
      rw [sameQueue]
      exact once.alone
    case unstarted =>
      rw [same, sameQueue]
      exact once.unstarted
    case untouched =>
      rw [same, sameQueue]
      exact fun waits => absurd waits notUntouched
  have isBusy {phase : SendPhase} (isPhase : peer.sender = phase)
      (notIdle : phase ≠ .idle) : peer.sender ≠ .idle :=
    isPhase ▸ notIdle
  cases sendStep_effect stepped with
  | started job rest isIdle isQueue =>
      have one := once.alone
      rw [isQueue, List.length_cons] at one
      have isEmpty : rest = [] := by
        rw [← List.length_eq_zero_iff]
        omega
      subst isEmpty
      have notWaiting :
          ¬(peer.coordinator.announced = [] ∨
            peer.coordinator.pendingSendPath ≠ none) := by
        intro waits
        have noneQueued := once.unstarted waits
        rw [isQueue] at noneQueued
        cases noneQueued
      constructor
      case announced => exact once.announced
      case asked => exact once.asked
      case alone => exact Nat.zero_le 1
      case unstarted => exact fun _ => rfl
      case untouched =>
        rintro (isEmpty | isPending | isQueued)
        · exact absurd (Or.inl isEmpty) notWaiting
        · exact absurd (Or.inr isPending) notWaiting
        · exact absurd rfl isQueued
  | openFailed job reason isOpening => exact begun rfl (isBusy isOpening nofun)
  | opened job totalBytes isOpening => exact begun rfl (isBusy isOpening nofun)
  | read stream length bytes isStreaming =>
      exact begun rfl (isBusy isStreaming nofun)
  | readEnded stream content isStreaming =>
      exact begun rfl (isBusy isStreaming nofun)
  | readFailed stream isStreaming =>
      exact begun rfl (isBusy isStreaming nofun)
  | took stream chunk rest isStreaming =>
      exact begun rfl (isBusy isStreaming nofun)
  | wrote stream chunk isStreaming =>
      exact begun rfl (isBusy isStreaming nofun)
  | wroteStopped stream chunk length isStreaming =>
      exact begun rfl (isBusy isStreaming nofun)
  | reported stream => exact once.of_same rfl rfl rfl rfl rfl
  | gaveUp stream isStreaming => exact begun rfl (isBusy isStreaming nofun)
  | finished stream inlineHash rehashFails isStreaming =>
      exact begun rfl (isBusy isStreaming nofun)

end Peer.SendsOnce

/-- What is announced has the name of the exchange. -/
theorem offeringEffect_named
    {exchange : Exchange} {peer next : Peer} {answer : Option Answer}
    {faults : Faults} (once : next.SendsOnce exchange)
    (offers :
      ∀ offer : HeldOffer, offer.notice ∈ peer.notices →
        offer.name = offeredName exchange.offer.path)
    (effect : OfferingEffect peer answer faults next.offering) :
    ∀ offer : HeldOffer, offer.notice ∈ next.notices →
      offer.name = offeredName exchange.offer.path := by
  intro offer member
  change offer.notice ∈ next.offering.notices at member
  cases effect with
  | quiet noAnswer isNext =>
      rw [isNext] at member
      exact offers offer member
  | announced pending size noAnswer measured isNext =>
      have waits : next.coordinator.pendingSendPath = some pending :=
        congrArg Offering.pending isNext
      rw [isNext] at member
      obtain earlier | new := List.mem_append.mp member
      · exact offers offer earlier
      · obtain ⟨-, isName, -⟩ :=
          Notice.offer.inj (List.mem_singleton.mp new)
        rw [isName, (once.asked pending waits).2.1]
  | started taken pending isTaken waits fromZero isNext =>
      rw [isNext] at member
      exact offers offer member
  | confirmed number offset prefixHash pending isTaken waits positive same
      isNext =>
      rw [isNext] at member
      obtain earlier | new := List.mem_append.mp member
      · exact offers offer earlier
      · cases List.mem_singleton.mp new
  | refuted number offset prefixHash pending isTaken waits positive other
      isNext =>
      rw [isNext] at member
      obtain earlier | new := List.mem_append.mp member
      · exact offers offer earlier
      · cases List.mem_singleton.mp new

/-! ## The receiving side -/

/-- What is held has been announced. -/
theorem answeringEffect_held
    {condition : HeldOffer → Prop} {peer next : Peer}
    {notice : Option Notice} {faults : Faults}
    (held : ∀ offer, peer.held = some offer → condition offer)
    (taken :
      ∀ offer : HeldOffer, notice = some offer.notice → condition offer)
    (effect : AnsweringEffect peer notice faults next) :
    ∀ offer, next.held = some offer → condition offer := by
  intro offer isHeld
  change next.answering.held = some offer at isHeld
  cases effect with
  | quiet noOffer isNext =>
      rw [isNext] at isHeld
      exact held offer isHeld
  | held other isOffer isNext =>
      rw [isNext] at isHeld
      rw [← Option.some.inj isHeld]
      exact taken other isOffer
  | accepted other job grants isFor fromZero isNext =>
      rw [isNext] at isHeld
      cases isHeld
  | resumed other job grants isFor positive fits isNext =>
      rw [isNext] at isHeld
      cases isHeld
  | withdrawn noNotice isNext =>
      rw [isNext] at isHeld
      cases isHeld
  | confirmed job isConfirmation waits isNext =>
      rw [isNext] at isHeld
      exact held offer isHeld
  | restarted told job isRestart waits isNext =>
      rw [isNext] at isHeld
      exact held offer isHeld

/-- An accept that waits for an offer has been given by `AcceptFile`. -/
theorem slotEffect_accepts
    {exchange : Exchange} {slots next : OfferSlots} {label : PeerLabel}
    (accepts :
      ∀ accept, slots.accept = some accept → accept = exchange.accept)
    (admitted :
      ∀ accept faults,
        label =
            .command
              (.acceptFile accept.saveDir accept.checksum accept.resume)
              faults →
          exchange.accept = accept)
    (effect : SlotEffect slots label next) :
    ∀ accept, next.accept = some accept → accept = exchange.accept := by
  cases effect with
  | unchanged => exact accepts
  | offered name size isMessage noAccept => nofun
  | autoAccepted => nofun
  | taken => exact accepts
  | waiting given isCommand =>
      intro accept isGiven
      obtain ⟨faults, isLabel⟩ := isCommand
      rw [← Option.some.inj isGiven]
      exact (admitted given faults isLabel).symm

/-! ## The link -/

/-- The exchange is under way: nothing is offered, held or accepted but what it
is about. -/
structure Exchange.Underway
    (exchange : Exchange) (leftFiles : Files) (link : Link) : Prop where
  bound : link.Bound
  informed : link.Informed
  sources : link.left.files = leftFiles
  once : link.left.SendsOnce exchange
  offers :
    ∀ offer : HeldOffer, offer.notice ∈ link.left.notices →
      offer.name = offeredName exchange.offer.path
  held :
    ∀ offer, link.right.held = some offer →
      offer.name = offeredName exchange.offer.path
  accepts :
    ∀ accept, link.right.coordinator.pendingAccept = some accept →
      accept = exchange.accept

namespace Exchange.Underway

variable {exchange : Exchange} {leftFiles : Files} {link next : Link}

theorem announced_le
    (underway : exchange.Underway leftFiles link) :
    link.left.coordinator.announced.length ≤ 1 := by
  obtain isEmpty | isOne := underway.once.announced
  · rw [isEmpty]
    exact Nat.zero_le 1
  · rw [isOne]
    exact Nat.le_refl 1

/-- What speaks for an offer speaks for the first, which is the last. -/
theorem number_of_trail
    (underway : exchange.Underway leftFiles link) {number : Nat}
    (speaks : number ∈ link.handshake.trail) :
    number = 0 ∧ link.left.coordinator.announced.length = 1 := by
  have known : number < link.left.coordinator.announced.length :=
    underway.bound.sound.known number speaks
  have few := underway.announced_le
  omega

/-- A step of the exchange takes every answer for the last offer. -/
theorem inStep
    {label : LinkLabel} (underway : exchange.Underway leftFiles link)
    (stepped : linkStep link label = some next) : link.InStep label := by
  constructor
  · cases label with
    | leftControl faults =>
        intro answer isAnswer
        obtain ⟨letter, isFirst, isAnswer⟩ :=
          Option.bind_eq_some_iff.mp isAnswer
        have isAnswered : answer ∈ link.right.answers :=
          List.mem_filterMap.mpr
            ⟨letter, List.mem_of_head? isFirst, isAnswer⟩
        have speaks : answer.number ∈ link.handshake.trail := by
          have member :
              answer.number ∈ link.right.answers.map Answer.number :=
            List.mem_map_of_mem isAnswered
          simp only [Handshake.trail, List.mem_append]
          exact Or.inl (Or.inl (Or.inl member))
        have isFirst := underway.number_of_trail speaks
        omega
    | _ => trivial
  · intro isStart
    subst isStart
    refine Or.inr ?_
    obtain ⟨left, started, -⟩ := Option.map_eq_some_iff.mp stepped
    cases isQueue : link.left.sendQueue with
    | nil =>
        cases isSender : link.left.sender with
        | idle =>
            simp [peerStep, Peer.sendStep, isSender, isQueue] at started
        | _ => simp [peerStep, Peer.sendStep, isSender] at started
    | cons job rest =>
        have isQueued : link.left.sendQueue ≠ [] := by
          rw [isQueue]
          exact List.cons_ne_nil job rest
        exact (underway.once.untouched (Or.inr (Or.inr isQueued))).2

/-- The receiving loop takes a notice, a command or the end of its streams. -/
theorem rightLoop
    {right : Peer} {peerLabel : PeerLabel} {notice : Option Notice}
    {faults : Faults} {outbox : List Letter}
    (underway : exchange.Underway leftFiles link)
    (notices :
      link.left.notices =
        notice.toList ++ (link.left.withOutbox outbox).notices)
    (accepted :
      ∀ accept faults,
        peerLabel =
            .command
              (.acceptFile accept.saveDir accept.checksum accept.resume)
              faults →
          exchange.accept = accept)
    (taken : peerStep link.right peerLabel = some right)
    (effect : AnsweringEffect link.right notice faults right) :
    (∀ offer : HeldOffer,
        offer.notice ∈ (link.left.withOutbox outbox).notices →
          offer.name = offeredName exchange.offer.path) ∧
      (∀ offer, right.held = some offer →
          offer.name = offeredName exchange.offer.path) ∧
        ∀ accept, right.coordinator.pendingAccept = some accept →
          accept = exchange.accept := by
  have offers := underway.offers
  rw [notices] at offers
  refine ⟨?_, ?_, ?_⟩
  · exact fun offer member =>
      offers offer (List.mem_append_right _ member)
  · refine answeringEffect_held underway.held ?_ effect
    intro offer isOffer
    apply offers
    rw [isOffer]
    exact List.mem_cons_self
  · exact
      slotEffect_accepts underway.accepts accepted (peerStep_slots taken)

/-- The receive task leaves offers and accepts alone. -/
theorem rightTask
    {right : Peer} {label : RecvLabel}
    (underway : exchange.Underway leftFiles link)
    (taken : link.right.recvStep label = some right) :
    (∀ offer, right.held = some offer →
        offer.name = offeredName exchange.offer.path) ∧
      ∀ accept, right.coordinator.pendingAccept = some accept →
        accept = exchange.accept := by
  have sameHeld : right.held = link.right.held :=
    congrArg Answering.held (recvStep_answering taken)
  have sameSlots : right.coordinator = link.right.coordinator :=
    taskEffect_coordinator (recvStep_effect taken)
  rw [sameHeld, sameSlots]
  exact ⟨underway.held, underway.accepts⟩

theorem step
    {label : LinkLabel} (underway : exchange.Underway leftFiles link)
    (asked : exchange.Asks link label)
    (stepped : linkStep link label = some next) :
    exchange.Underway leftFiles next := by
  have bound := linkStep_bound underway.bound (underway.inStep stepped) stepped
  have informed := underway.informed.step stepped
  have sources :=
    (linkStep_files underway.bound.roles stepped).trans underway.sources
  have sends := underway.bound.roles.sends
  cases linkStep_effect stepped with
  | leftCommand command faults left isSend taken =>
      have effect := commandStep_offering isSend taken
      have once : left.SendsOnce exchange := by
        refine
          underway.once.loop sends
            (fun other _ isOther => by
              cases isOther
              exact isSend) rfl ?_ taken effect
        intro pending others isCommand
        cases isCommand
        exact asked
      exact
        ⟨bound, informed, sources, once,
          offeringEffect_named once underway.offers effect, underway.held,
          underway.accepts⟩
  | leftControl faults letter rest left arrived taken =>
      have effect := controlStep_offering sends taken
      have once : left.SendsOnce exchange :=
        underway.once.loop sends (fun _ _ isCommand => by cases isCommand)
          rfl (fun _ _ isCommand => by cases isCommand) taken effect
      exact
        ⟨bound, informed, sources, once,
          offeringEffect_named once underway.offers effect, underway.held,
          underway.accepts⟩
  | leftEnds reason left taken =>
      have effect := endStep_offering .none taken
      have once : left.SendsOnce exchange :=
        underway.once.loop sends (fun _ _ isCommand => by cases isCommand)
          rfl (fun _ _ isCommand => by cases isCommand) taken effect
      exact
        ⟨bound, informed, sources, once,
          offeringEffect_named once underway.offers effect, underway.held,
          underway.accepts⟩
  | leftSend label left taken =>
      have sameNotices : left.notices = link.left.notices :=
        congrArg Offering.notices (sendStep_offering taken)
      refine
        ⟨bound, informed, sources, underway.once.send taken, ?_,
          underway.held, underway.accepts⟩
      change ∀ offer : HeldOffer, offer.notice ∈ left.notices → _
      rw [sameNotices]
      exact underway.offers
  | rightCommand command faults right receives taken =>
      have effect := commandStep_answering receives taken
      obtain ⟨offers, held, accepts⟩ :=
        @rightLoop _ _ link _ _ _ _ link.left.outbox underway rfl
          (fun accept others isCommand => by
            cases isCommand
            exact asked) taken effect
      exact
        ⟨bound, informed, sources, underway.once, offers, held, accepts⟩
  | rightControl faults letter rest right arrived taken =>
      have effect := controlStep_answering underway.bound.roles.receives taken
      obtain ⟨offers, held, accepts⟩ :=
        underway.rightLoop (notices_of_outbox arrived)
          (fun _ _ isCommand => by cases isCommand) taken effect
      exact
        ⟨bound, informed, sources,
          underway.once.of_same rfl rfl rfl rfl rfl, offers, held, accepts⟩
  | rightEnds reason right taken =>
      have effect := endStep_answering .none taken
      obtain ⟨offers, held, accepts⟩ :=
        @rightLoop _ _ link _ _ _ _ link.left.outbox underway rfl
          (fun _ _ isCommand => by cases isCommand) taken effect
      exact
        ⟨bound, informed, sources, underway.once, offers, held, accepts⟩
  | received chunk rest right isFront taken =>
      obtain ⟨held, accepts⟩ := underway.rightTask taken
      exact
        ⟨bound, informed, sources,
          underway.once.of_same rfl rfl rfl rfl rfl, underway.offers, held,
          accepts⟩
  | rightRecv label right notReceive taken =>
      obtain ⟨held, accepts⟩ := underway.rightTask taken
      exact
        ⟨bound, informed, sources, underway.once, underway.offers, held,
          accepts⟩

theorem initial (exchange : Exchange) (leftFiles rightFiles : Files) :
    exchange.Underway leftFiles (.initial leftFiles rightFiles) where
  bound := bound_initial leftFiles rightFiles
  informed :=
    { inline := fun stream hash isStreaming => by cases isStreaming
      announced := fun message member => by cases member
      queued := fun hash member => by cases member
      computed := fun verifying isVerifying => by cases isVerifying }
  sources := rfl
  once := sendsOnce_initial exchange leftFiles
  offers _ member := by cases member
  held _ isHeld := by cases isHeld
  accepts _ isAccept := by cases isAccept

/-- Once there is an answer, nothing else speaks for the offer. -/
theorem alone
    {answer : Answer} (underway : exchange.Underway leftFiles link)
    (isAnswered : answer ∈ link.right.answers) :
    link.right.held = none ∧ link.left.notices = [] := by
  obtain ⟨first, rest, answers⟩ :=
    List.exists_cons_of_ne_nil (List.ne_nil_of_mem isAnswered)
  have speaks : first.number ∈ link.handshake.trail := by
    have member : first.number ∈ link.right.answers.map Answer.number := by
      rw [answers]
      exact List.mem_cons_self
    simp only [Handshake.trail, List.mem_append]
    exact Or.inl (Or.inl (Or.inl member))
  have isOnly := underway.number_of_trail speaks
  obtain ⟨-, noneOffered, noNotices⟩ :=
    underway.bound.sound.alone answers (by
      change first.number + 1 = link.left.coordinator.announced.length
      omega)
  exact ⟨Option.map_eq_none_iff.mp noneOffered, noNotices⟩

variable {source : List UInt8}

/-- The offer promises the source. -/
theorem promised
    {number : Nat} (underway : exchange.Underway leftFiles link)
    (isSource :
      leftFiles (components exchange.offer.path) = some (.file source))
    (known : number < link.left.coordinator.announced.length) :
    number = 0 ∧ link.left.promised number = source := by
  have few := underway.announced_le
  have isFirst : number = 0 := by
    omega
  refine ⟨isFirst, ?_⟩
  obtain isEmpty | isOne := underway.once.announced
  · rw [isEmpty] at known
    cases known
  · rw [isFirst, Peer.promised, isOne, List.getElem?_cons_zero,
      Option.map_some, Option.getD_some, Peer.pledged, underway.sources,
      isSource]

theorem genuine
    {offer : HeldOffer} (underway : exchange.Underway leftFiles link)
    (isSource :
      leftFiles (components exchange.offer.path) = some (.file source))
    (isGenuine : offer.Genuine link.left)
    (isNamed : offer.name = offeredName exchange.offer.path) :
    offer = (exchange.applied source.length).held 0 := by
  obtain ⟨number, name, size⟩ := offer
  obtain ⟨isFirst, isPromise⟩ :=
    underway.promised isSource isGenuine.known
  have isSize := isGenuine.size
  rw [isPromise] at isSize
  simp only at isFirst isNamed isSize
  rw [isFirst, isNamed, isSize]
  rfl

/-- Nothing is accepted but the offer of the exchange. -/
theorem applied
    {label : PeerLabel} {applied : AppliedAccept}
    (underway : exchange.Underway leftFiles link)
    (isSource :
      leftFiles (components exchange.offer.path) = some (.file source))
    (arrives :
      ∀ letter faults, label = .control letter faults →
        letter ∈ link.left.outbox)
    (admitted :
      ∀ accept faults,
        label =
            .command
              (.acceptFile accept.saveDir accept.checksum accept.resume)
              faults →
          exchange.accept = accept)
    (isApplied : link.right.applied label = some applied) :
    applied = exchange.applied source.length := by
  unfold Peer.applied at isApplied
  split at isApplied
  · rename_i name size resume checksum number faults
    obtain ⟨accept, isAccept, isApplied⟩ :=
      Option.map_eq_some_iff.mp isApplied
    have arrived :
        HeldOffer.notice ⟨number, name, size⟩ ∈ link.left.notices :=
      List.mem_filterMap.mpr ⟨_, arrives _ _ rfl, rfl⟩
    have isOffer :=
      underway.genuine isSource (underway.bound.notices _ arrived)
        (underway.offers _ arrived)
    injection isOffer with _ isName isSize
    rw [← isApplied, underway.accepts accept isAccept, isName, isSize]
    rfl
  · rename_i saveDir checksum resume faults
    have isAccept := admitted ⟨saveDir, checksum, resume⟩ faults rfl
    split at isApplied
    · rename_i name size isName isSize
      have isHeld :
          link.right.held =
            some ⟨link.right.coordinator.offeredNumber, name, size⟩ := by
        rw [Peer.held, isName, isSize]
      have isOffer :=
        underway.genuine isSource (underway.bound.held _ isHeld)
          (underway.held _ isHeld)
      injection isOffer with _ isName isSize
      rw [← Option.some.inj isApplied, ← isAccept, isName, isSize]
      rfl
    · cases isApplied
  · cases isApplied

end Exchange.Underway

end Quiczilla
