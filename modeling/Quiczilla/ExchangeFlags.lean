import Quiczilla.ColdResume
import Quiczilla.PeerEvents

/-!
# The flags of an exchange

The offer carries the flags of `SendFile` to the application of the receiving
side.  Without the resume flag, or below the threshold, nothing is kept.
-/

namespace Quiczilla

open Foundation

/-! ## What the sending side announces -/

def ControlMessage.isMetadata : ControlMessage → Bool
  | .metadata _ _ _ _ => true
  | _ => false

/-- The offers on their way to the other peer. -/
def Peer.offersOut (peer : Peer) : List Letter :=
  peer.outbox.filter fun letter => letter.message.isMetadata

theorem send_offersOut
    (peer : Peer) {message : ControlMessage} (offer : Nat)
    (other : message.isMetadata = false) :
    (peer.send message offer).offersOut = peer.offersOut := by
  simp [Peer.offersOut, Peer.send, other]

theorem dispatch_offersOut
    {peer : Peer} (sends : peer.OnlySends) (letter : Letter)
    (faults : Faults) :
    (peer.dispatch letter faults).offersOut = peer.offersOut := by
  obtain ⟨message, offer⟩ := letter
  cases message with
  | metadata name size resume checksum =>
      simp only [Peer.dispatch, Peer.handleMetadata, sends.noAccept]
      rfl
  | ready =>
      simp only [Peer.dispatch, Peer.handleReady]
      split <;> rfl
  | resumeReady offset prefixHash =>
      simp only [Peer.dispatch, Peer.handleResumeReady]
      split
      · split
        · split
          · exact send_offersOut peer peer.lastOffer rfl
          · exact send_offersOut (peer.setPendingSend _) peer.lastOffer rfl
        · rfl
      · rfl
  | resumeOk => simp only [Peer.dispatch, Peer.handleResumeOk, sends.noResume]
  | restartFromZero =>
      simp only [Peer.dispatch, Peer.handleRestart, sends.noResume]
  | _ => rfl

/-- `SendFile` puts its flags into the offer. -/
theorem handleSendFile_offersOut
    (peer : Peer) (pending : PendingSend) (faults : Faults) :
    (peer.handleSendFile pending faults).offersOut = peer.offersOut ∨
      ∃ size,
        (peer.handleSendFile pending faults).offersOut =
          peer.offersOut ++
            [⟨.metadata (offeredName pending.path) size pending.resume
                pending.checksum,
              peer.coordinator.announced.length⟩] := by
  unfold Peer.handleSendFile
  split
  · exact Or.inl rfl
  · split
    · rename_i size _
      refine Or.inr ⟨size, ?_⟩
      simp [Peer.offersOut, Peer.announce, Peer.send, Peer.emit,
        ControlMessage.isMetadata, offeredName]
    · exact Or.inl rfl

theorem sendStep_offersOut
    {peer next : Peer} {label : SendLabel}
    (stepped : peer.sendStep label = some next) :
    next.offersOut = peer.offersOut := by
  cases sendStep_effect stepped with
  | finished stream inlineHash rehashFails =>
      exact send_offersOut _ _ rfl
  | _ => rfl

/-- An offer that is added has the flags of the command. -/
theorem peerStep_offersOut
    {peer next : Peer} {label : PeerLabel} (sends : peer.OnlySends)
    (noTask : ∀ task, label ≠ .recv task)
    (noAccept :
      ∀ command faults, label = .command command faults →
        command.sends = true)
    (stepped : peerStep peer label = some next) :
    ∀ letter ∈ next.offersOut,
      letter ∈ peer.offersOut ∨
        ∃ path size resume checksum faults,
          label = .command (.sendFile path checksum resume) faults ∧
            letter.message =
              .metadata (offeredName path) size resume checksum := by
  have same (isNext : next.offersOut = peer.offersOut) :
      ∀ letter ∈ next.offersOut,
        letter ∈ peer.offersOut ∨
          ∃ path size resume checksum faults,
            label = .command (.sendFile path checksum resume) faults ∧
              letter.message =
                .metadata (offeredName path) size resume checksum := by
    rw [isNext]
    exact fun letter member => Or.inl member
  cases label with
  | control letter faults =>
      apply same
      rw [peerStep_control stepped]
      exact dispatch_offersOut sends letter faults
  | command command faults =>
      rw [peerStep_command stepped] at same ⊢
      cases command with
      | sendFile path checksum resume =>
          obtain unchanged | ⟨size, added⟩ :=
            handleSendFile_offersOut peer ⟨path, checksum, resume⟩ faults
          · exact same unchanged
          · intro letter member
            rw [Peer.handleCommand, added] at member
            obtain earlier | last := List.mem_append.mp member
            · exact Or.inl earlier
            · rw [List.mem_singleton.mp last]
              exact
                Or.inr ⟨path, size, resume, checksum, faults, rfl, rfl⟩
      | acceptFile saveDir checksum resume => cases noAccept _ _ rfl
      | rejectFile => exact same (send_offersOut _ _ rfl)
      | pause => exact same (send_offersOut _ _ rfl)
      | resume => exact same (send_offersOut _ _ rfl)
      | disconnect => exact same rfl
  | loopEnds reason =>
      apply same
      rw [peerStep_ends stepped]
      cases reason <;> rfl
  | send task => exact same (sendStep_offersOut stepped)
  | recv task => exact absurd rfl (noTask task)

/-! ## What the receiving side may keep -/

theorem truncateTo_coordinator
    (peer : Peer) (path : UnixPath) (length : Nat) (faults : Faults) :
    (peer.truncateTo path length faults).coordinator =
      peer.coordinator := by
  unfold Peer.truncateTo
  split
  · rfl
  · split <;> rfl

theorem handleAccept_offeredResume
    (peer : Peer) (accept : PendingAccept) (name : String) (size : Nat)
    (faults : Faults) :
    (peer.handleAccept accept name size faults).coordinator.offeredResume =
      peer.coordinator.offeredResume := by
  have staged (path : Option UnixPath) (part : UnixPath) (length : Nat) :
      ((peer.withPartPath path).truncateTo part length
          faults).coordinator.offeredResume =
        peer.coordinator.offeredResume := by
    rw [truncateTo_coordinator]
    rfl
  simp only [Peer.handleAccept]
  split
  · split
    · split
      · split
        · exact staged _ _ _
        · rfl
      · split <;> rfl
    · rfl
  · rfl

/-- A receive waits for a reply only if the file is large and the offer may be
resumed. -/
theorem handleAccept_waits
    (peer : Peer) (accept : PendingAccept) (name : String) (size : Nat)
    (faults : Faults) :
    (peer.handleAccept accept name size
          faults).coordinator.pendingResumeRecv =
        peer.coordinator.pendingResumeRecv ∨
      resumeThresholdBytes ≤ size ∧
        peer.coordinator.offeredResume = true := by
  simp only [Peer.handleAccept]
  split
  · rename_i large
    by_cases isResume : peer.coordinator.offeredResume = true
    · exact Or.inr ⟨large, isResume⟩
    · refine Or.inl ?_
      rw [if_neg]
      · rfl
      · rw [Bool.and_eq_true]
        exact fun both => isResume both.1
  · exact Or.inl rfl

/-- What the loop knows of the resume flag comes from `METADATA`. -/
theorem loopStep_offeredResume
    {peer next : Peer} {label : PeerLabel} (isLoop : label.isLoop = true)
    (stepped : peerStep peer label = some next) :
    next.coordinator.offeredResume = peer.coordinator.offeredResume ∨
      ∃ name size checksum,
        label.message =
          some
            (.metadata name size next.coordinator.offeredResume
              checksum) := by
  cases label with
  | control letter faults =>
      rw [peerStep_control stepped]
      obtain ⟨message, offer⟩ := letter
      cases message with
      | metadata name size resume checksum =>
          refine Or.inr ⟨name, size, checksum, ?_⟩
          have flag :
              (peer.handleMetadata name size resume checksum offer
                  faults).coordinator.offeredResume = resume := by
            unfold Peer.handleMetadata
            split
            · exact handleAccept_offeredResume _ _ _ _ _
            · rfl
          exact
            congrArg
              (fun told =>
                some (ControlMessage.metadata name size told checksum))
              flag.symm
      | ready =>
          refine Or.inl ?_
          change peer.handleReady.coordinator.offeredResume = _
          unfold Peer.handleReady
          split <;> rfl
      | resumeReady offset prefixHash =>
          refine Or.inl ?_
          change
            (peer.handleResumeReady offset prefixHash
              faults).coordinator.offeredResume = _
          unfold Peer.handleResumeReady
          split
          · split
            · split <;> rfl
            · rfl
          · rfl
      | resumeOk =>
          refine Or.inl ?_
          change peer.handleResumeOk.coordinator.offeredResume = _
          unfold Peer.handleResumeOk
          split <;> rfl
      | restartFromZero =>
          refine Or.inl ?_
          change (peer.handleRestart faults).coordinator.offeredResume = _
          unfold Peer.handleRestart Peer.recreatePart
          split
          · split
            · split
              · rfl
              · split <;> rfl
            · rfl
          · rfl
      | _ => exact Or.inl rfl
  | command command faults =>
      refine Or.inl ?_
      rw [peerStep_command stepped]
      cases command with
      | sendFile path checksum resume =>
          simp only [Peer.handleCommand, Peer.handleSendFile]
          split
          · rfl
          · split <;> rfl
      | acceptFile saveDir checksum resume =>
          simp only [Peer.handleCommand, Peer.handleAcceptFile]
          split
          · exact handleAccept_offeredResume _ _ _ _ _
          · rfl
      | _ => rfl
  | loopEnds reason =>
      refine Or.inl ?_
      rw [peerStep_ends stepped]
      cases reason <;> rfl
  | send task => cases isLoop
  | recv task => cases isLoop

/-- A receive that begins to wait is large, and its offer may be resumed. -/
theorem loopStep_waits
    {peer next : Peer} {label : PeerLabel} (isLoop : label.isLoop = true)
    (noneWaits : peer.coordinator.pendingResumeRecv = none)
    (stepped : peerStep peer label = some next) :
    next.coordinator.pendingResumeRecv = none ∨
      ∃ applied, peer.applied label = some applied ∧
        resumeThresholdBytes ≤ applied.size ∧
          next.coordinator.offeredResume = true := by
  have accepts (before : Peer) (accept : PendingAccept) (name : String)
      (size : Nat) (faults : Faults)
      (same : before.coordinator.pendingResumeRecv = none)
      (isApplied : peer.applied label = some ⟨accept, name, size⟩)
      (isNext : next.coordinator =
        (before.handleAccept accept name size faults).coordinator) :
      next.coordinator.pendingResumeRecv = none ∨
        ∃ applied, peer.applied label = some applied ∧
          resumeThresholdBytes ≤ applied.size ∧
            next.coordinator.offeredResume = true := by
    rw [isNext, handleAccept_offeredResume]
    obtain unchanged | large := handleAccept_waits before accept name size faults
    · exact Or.inl (unchanged.trans same)
    · exact Or.inr ⟨_, isApplied, large⟩
  cases label with
  | control letter faults =>
      obtain ⟨message, offer⟩ := letter
      have isNext := peerStep_control stepped
      cases message with
      | metadata name size resume checksum =>
          have isNext :
              next.coordinator =
                (peer.handleMetadata name size resume checksum offer
                  faults).coordinator := by
            rw [isNext]
            rfl
          unfold Peer.handleMetadata at isNext
          split at isNext
          · rename_i accept isAccept
            refine accepts _ accept name size faults ?_ ?_ isNext
            · exact noneWaits
            · rw [Peer.applied, isAccept]
              rfl
          · rw [isNext]
            exact Or.inl noneWaits
      | ready =>
          refine Or.inl ?_
          rw [isNext]
          change peer.handleReady.coordinator.pendingResumeRecv = none
          unfold Peer.handleReady
          split <;> exact noneWaits
      | resumeReady offset prefixHash =>
          refine Or.inl ?_
          rw [isNext]
          change
            (peer.handleResumeReady offset prefixHash
              faults).coordinator.pendingResumeRecv = none
          unfold Peer.handleResumeReady
          split
          · split
            · split <;> exact noneWaits
            · exact noneWaits
          · exact noneWaits
      | resumeOk =>
          refine Or.inl ?_
          rw [isNext]
          change peer.handleResumeOk.coordinator.pendingResumeRecv = none
          rw [Peer.handleResumeOk, noneWaits]
          exact noneWaits
      | restartFromZero =>
          refine Or.inl ?_
          rw [isNext]
          change
            (peer.handleRestart faults).coordinator.pendingResumeRecv = none
          rw [Peer.handleRestart, noneWaits]
          exact noneWaits
      | _ =>
          rw [isNext]
          exact Or.inl noneWaits
  | command command faults =>
      have isNext := peerStep_command stepped
      cases command with
      | sendFile path checksum resume =>
          refine Or.inl ?_
          rw [isNext]
          simp only [Peer.handleCommand, Peer.handleSendFile]
          split
          · exact noneWaits
          · split <;> exact noneWaits
      | acceptFile saveDir checksum resume =>
          rw [Peer.handleCommand, Peer.handleAcceptFile] at isNext
          split at isNext
          · rename_i name size isName isSize
            refine
              accepts peer.clearOffer ⟨saveDir, checksum, resume⟩ name size
                faults noneWaits ?_ (congrArg Peer.coordinator isNext)
            rw [Peer.applied, isName, isSize]
          · rw [isNext]
            exact Or.inl noneWaits
      | _ =>
          rw [isNext]
          exact Or.inl noneWaits
  | loopEnds reason =>
      rw [peerStep_ends stepped]
      cases reason <;> exact Or.inl noneWaits
  | send task => cases isLoop
  | recv task => cases isLoop

/-! ## The link -/

/-- This is the offer, as it is told. -/
structure Exchange.Tells
    (exchange : Exchange) (name : String) (resume checksum : Bool) :
    Prop where
  name : name = offeredName exchange.offer.path
  resume : resume = exchange.offer.resume
  checksum : checksum = exchange.offer.checksum

/-- Whatever the receiving side is told is the offer. -/
structure Exchange.Flagged (exchange : Exchange) (link : Link) : Prop where
  announced :
    ∀ letter ∈ link.left.offersOut, ∀ name size resume checksum,
      letter.message = .metadata name size resume checksum →
        exchange.Tells name resume checksum
  told :
    ∀ name size resume checksum,
      .fileOffered name size resume checksum ∈ link.right.events →
        exchange.Tells name resume checksum
  known :
    link.right.coordinator.offeredResume = true →
      exchange.offer.resume = true

namespace Exchange.Flagged

variable {exchange : Exchange} {leftFiles rightFiles : Files}
  {link next : Link}

theorem initial (exchange : Exchange) (leftFiles rightFiles : Files) :
    exchange.Flagged (.initial leftFiles rightFiles) where
  announced _ member := by cases member
  told _ _ _ _ member := by simp [Link.initial, Peer.initial] at member
  known isKnown := by cases isKnown

/-- The sending side takes a step. -/
theorem sending
    {left : Peer} {label : PeerLabel} (flagged : exchange.Flagged link)
    (sends : link.left.OnlySends) (noTask : ∀ task, label ≠ .recv task)
    (noAccept :
      ∀ command faults, label = .command command faults →
        command.sends = true)
    (admitted :
      ∀ path checksum resume faults,
        label = .command (.sendFile path checksum resume) faults →
          exchange.Tells (offeredName path) resume checksum)
    (stepped : peerStep link.left label = some left) :
    ∀ letter ∈ left.offersOut, ∀ name size resume checksum,
      letter.message = .metadata name size resume checksum →
        exchange.Tells name resume checksum := by
  intro letter member name size resume checksum isMessage
  obtain earlier | ⟨path, otherSize, otherResume, otherChecksum, faults,
      isCommand, isOther⟩ :=
    peerStep_offersOut sends noTask noAccept stepped letter member
  · exact flagged.announced letter earlier name size resume checksum isMessage
  · rw [isMessage] at isOther
    cases isOther
    exact admitted path checksum resume faults isCommand

/-- The application of the receiving side is told what the message says. -/
theorem receiving
    {right : Peer} {label : PeerLabel} (flagged : exchange.Flagged link)
    (arrives :
      ∀ name size resume checksum,
        label.message = some (.metadata name size resume checksum) →
          exchange.Tells name resume checksum)
    (stepped : peerStep link.right label = some right) :
    ∀ name size resume checksum,
      .fileOffered name size resume checksum ∈ right.events →
        exchange.Tells name resume checksum := by
  intro name size resume checksum member
  obtain earlier | isMessage :=
    peerStep_offers stepped name size resume checksum member
  · exact flagged.told name size resume checksum earlier
  · exact arrives name size resume checksum isMessage

theorem step
    {label : LinkLabel} (flagged : exchange.Flagged link)
    (sends : link.left.OnlySends)
    (admitted :
      ∀ path checksum resume faults,
        label = .leftCommand (.sendFile path checksum resume) faults →
          exchange.offer = ⟨path, checksum, resume⟩)
    (stepped : linkStep link label = some next) :
    exchange.Flagged next := by
  -- The loop of the receiving side notes the flag of the message.
  have rightLoops {right : Peer} {peerLabel : PeerLabel}
      {outbox : List Letter} (isLoop : peerLabel.isLoop = true)
      (fewer :
        ∀ letter ∈ (link.left.withOutbox outbox).offersOut,
          letter ∈ link.left.offersOut)
      (arrives :
        ∀ name size resume checksum,
          peerLabel.message = some (.metadata name size resume checksum) →
            exchange.Tells name resume checksum)
      (taken : peerStep link.right peerLabel = some right) :
      exchange.Flagged ⟨link.left.withOutbox outbox, right⟩ := by
    refine
      ⟨fun letter member => flagged.announced letter (fewer letter member),
        flagged.receiving arrives taken, ?_⟩
    intro isKnown
    obtain same | ⟨name, size, checksum, isMessage⟩ :=
      loopStep_offeredResume isLoop taken
    · apply flagged.known
      rw [← same]
      exact isKnown
    · have flags := arrives name size _ checksum isMessage
      rw [← flags.resume]
      exact isKnown
  have rightTasks {right left : Peer} {task : RecvLabel}
      (same : left.offersOut = link.left.offersOut)
      (taken : link.right.recvStep task = some right) :
      exchange.Flagged ⟨left, right⟩ := by
    have sameLoop : right.coordinator = link.right.coordinator :=
      taskEffect_coordinator (recvStep_effect taken)
    refine ⟨?_, ?_, ?_⟩
    · rw [same]
      exact flagged.announced
    · exact
        @receiving _ _ _ (.recv task) flagged
          (fun _ _ _ _ isMessage => by cases isMessage) taken
    · rw [sameLoop]
      exact flagged.known
  cases linkStep_effect stepped with
  | leftCommand command faults left isSend taken =>
      refine ⟨?_, flagged.told, flagged.known⟩
      refine
        flagged.sending sends (fun _ isTask => by cases isTask)
          (fun _ _ isCommand => by
            cases isCommand
            exact isSend) ?_ taken
      intro path checksum resume others isCommand
      cases isCommand
      have isOffer := admitted path checksum resume faults rfl
      constructor <;> rw [isOffer]
  | leftControl faults letter rest left arrived taken =>
      exact
        ⟨flagged.sending sends (fun _ isTask => by cases isTask)
            (fun _ _ isCommand => by cases isCommand)
            (fun _ _ _ _ isCommand => by cases isCommand) taken,
          flagged.told, flagged.known⟩
  | leftEnds reason left taken =>
      exact
        ⟨flagged.sending sends (fun _ isTask => by cases isTask)
            (fun _ _ isCommand => by cases isCommand)
            (fun _ _ _ _ isCommand => by cases isCommand) taken,
          flagged.told, flagged.known⟩
  | leftSend task left taken =>
      exact
        ⟨@sending _ _ left (.send task) flagged sends
            (fun _ isTask => by cases isTask)
            (fun _ _ isCommand => by cases isCommand)
            (fun _ _ _ _ isCommand => by cases isCommand) taken,
          flagged.told, flagged.known⟩
  | rightCommand command faults right receives taken =>
      exact
        @rightLoops _ _ link.left.outbox rfl (fun _ member => member)
          (fun _ _ _ _ isMessage => by cases isMessage) taken
  | rightControl faults letter rest right arrived taken =>
      refine @rightLoops _ _ rest rfl ?_ ?_ taken
      · intro other member
        rw [Peer.offersOut, arrived, List.filter_cons]
        split
        · exact List.mem_cons_of_mem _ member
        · exact member
      · intro name size resume checksum isMessage
        have isMessage :
            letter.message = .metadata name size resume checksum :=
          Option.some.inj isMessage
        refine
          flagged.announced letter ?_ name size resume checksum isMessage
        rw [Peer.offersOut, arrived, List.filter_cons, isMessage]
        exact List.mem_cons_self
  | rightEnds reason right taken =>
      exact
        @rightLoops _ _ link.left.outbox rfl (fun _ member => member)
          (fun _ _ _ _ isMessage => by cases isMessage) taken
  | received chunk rest right isFront taken => exact rightTasks rfl taken
  | rightRecv task right notReceive taken => exact rightTasks rfl taken

end Exchange.Flagged

/-- The file is large and its offer may be resumed. -/
def Exchange.MayResume (exchange : Exchange) (size : Nat) : Prop :=
  resumeThresholdBytes ≤ size ∧ exchange.offer.resume = true

/-- Nothing is asked and nothing confirmed. -/
structure Link.Unasked (link : Link) : Prop where
  noneWaits : link.right.coordinator.pendingResumeRecv = none
  unasked :
    ∀ number offset hash,
      .resumeReady number offset hash ∉ link.right.answers
  unconfirmed : .resumeOk ∉ link.left.notices
  unhandled : .resumeOk ∉ link.right.handled

namespace Link.Unasked

variable {exchange : Exchange} {leftFiles rightFiles : Files}
  {source : List UInt8} {link next : Link}

theorem initial (leftFiles rightFiles : Files) :
    (Link.initial leftFiles rightFiles).Unasked where
  noneWaits := rfl
  unasked _ _ _ member := by cases member
  unconfirmed member := by cases member
  unhandled member := by cases member

theorem confirms
    {left : Peer} {answer : Option Answer} {faults : Faults}
    (unasked : link.Unasked)
    (asked : ∀ taken, answer = some taken → taken ∈ link.right.answers)
    (effect : OfferingEffect link.left answer faults left.offering) :
    .resumeOk ∉ left.notices := by
  intro isConfirmed
  obtain earlier | ⟨number, offset, prefixHash, pending, isTaken, -, -⟩ :=
    offeringEffect_confirms effect isConfirmed
  · exact unasked.unconfirmed earlier
  · exact unasked.unasked number offset prefixHash (asked _ isTaken)

/-- A step of the receiving loop: the accept of a modest file asks for
nothing. -/
theorem rightLoop
    {peerLabel : PeerLabel} {faults : Faults} {outbox : List Letter}
    (unasked : link.Unasked)
    (modest : ¬exchange.MayResume source.length)
    (underway : exchange.Underway leftFiles link)
    (flagged : exchange.Flagged next)
    (isSource :
      leftFiles (components exchange.offer.path) = some (.file source))
    (isLoop : peerLabel.isLoop = true)
    (isLeft : next.left = link.left.withOutbox outbox)
    (notices :
      link.left.notices =
        peerLabel.notice?.toList ++ (link.left.withOutbox outbox).notices)
    (arrives :
      ∀ letter faults, peerLabel = .control letter faults →
        letter ∈ link.left.outbox)
    (accepted :
      ∀ accept faults,
        peerLabel =
            .command
              (.acceptFile accept.saveDir accept.checksum accept.resume)
              faults →
          exchange.accept = accept)
    (taken : peerStep link.right peerLabel = some next.right)
    (effect :
      AnsweringEffect link.right peerLabel.notice? faults next.right) :
    next.Unasked := by
  have noneWaits : next.right.coordinator.pendingResumeRecv = none := by
    obtain noneWaits | ⟨applied, isApplied, large, isResume⟩ :=
      loopStep_waits isLoop unasked.noneWaits taken
    · exact noneWaits
    · rw [underway.applied isSource arrives accepted isApplied] at large
      exact absurd ⟨large, flagged.known isResume⟩ modest
  refine ⟨noneWaits, ?_, ?_, ?_⟩
  · intro number offset hash member
    obtain earlier | ⟨job, waits, -⟩ :=
      answeringEffect_asked effect number offset hash member
    · exact unasked.unasked number offset hash earlier
    · rw [noneWaits] at waits
      cases waits
  · intro isNotice
    apply unasked.unconfirmed
    rw [isLeft] at isNotice
    rw [notices]
    exact List.mem_append_right _ isNotice
  · intro isHandled
    rw [loopStep_handled isLoop taken] at isHandled
    obtain earlier | now := List.mem_append.mp isHandled
    · exact unasked.unhandled earlier
    · apply unasked.unconfirmed
      rw [notices, notice?_resumeOk.mpr (Option.mem_toList.mp now)]
      exact List.mem_cons_self

theorem rightTask
    {right : Peer} {task : RecvLabel} {rest : List UInt8}
    (unasked : link.Unasked)
    (taken : link.right.recvStep task = some right) :
    Link.Unasked ⟨link.left.withFileOut rest, right⟩ := by
  have answering := recvStep_answering taken
  have waiting :
      right.coordinator.pendingResumeRecv =
        link.right.coordinator.pendingResumeRecv :=
    congrArg Answering.waiting answering
  have answers : right.answers = link.right.answers :=
    congrArg Answering.answers answering
  constructor
  · rw [waiting]
    exact unasked.noneWaits
  · rw [answers]
    exact unasked.unasked
  · exact unasked.unconfirmed
  · rw [recvStep_handled taken]
    exact unasked.unhandled

theorem step
    {label : LinkLabel} (unasked : link.Unasked)
    (modest : ¬exchange.MayResume source.length)
    (underway : exchange.Underway leftFiles link)
    (flagged : exchange.Flagged next)
    (isSource :
      leftFiles (components exchange.offer.path) = some (.file source))
    (admitted : exchange.Admits link label)
    (stepped : linkStep link label = some next) : next.Unasked := by
  have sends := underway.bound.roles.sends
  have rightLoops {peerLabel : PeerLabel} {faults : Faults}
      {outbox : List Letter} :=
    @rightLoop exchange leftFiles source link next peerLabel faults outbox
      unasked modest underway flagged isSource
  cases linkStep_effect stepped with
  | leftCommand command faults left isSend taken =>
      have effect := commandStep_offering isSend taken
      exact
        ⟨unasked.noneWaits, unasked.unasked,
          unasked.confirms (fun _ isTaken => by cases isTaken) effect,
          unasked.unhandled⟩
  | leftControl faults letter rest left arrived taken =>
      have effect := controlStep_offering sends taken
      have answers := answers_of_outbox arrived
      refine ⟨unasked.noneWaits, ?_, ?_, unasked.unhandled⟩
      · intro number offset hash member
        apply unasked.unasked number offset hash
        rw [answers]
        exact List.mem_append_right _ member
      · refine unasked.confirms ?_ effect
        intro answer isTaken
        rw [answers, isTaken]
        exact List.mem_cons_self
  | leftEnds reason left taken =>
      have effect := endStep_offering .none taken
      exact
        ⟨unasked.noneWaits, unasked.unasked,
          unasked.confirms (fun _ isTaken => by cases isTaken) effect,
          unasked.unhandled⟩
  | leftSend task left taken =>
      have notices : left.notices = link.left.notices :=
        congrArg Offering.notices (sendStep_offering taken)
      refine ⟨unasked.noneWaits, unasked.unasked, ?_, unasked.unhandled⟩
      rw [notices]
      exact unasked.unconfirmed
  | rightCommand command faults right receives taken =>
      have effect := commandStep_answering receives taken
      refine
        @rightLoops (.command command faults) faults link.left.outbox rfl rfl
          rfl (fun _ _ isControl => by cases isControl) ?_ taken effect
      intro accept others isCommand
      cases isCommand
      exact admitted.1
  | rightControl faults letter rest right arrived taken =>
      have effect := controlStep_answering underway.bound.roles.receives taken
      refine
        @rightLoops (.control letter faults) faults rest rfl rfl
          (notices_of_outbox arrived) ?_
          (fun _ _ isCommand => by cases isCommand) taken effect
      intro other others isControl
      cases isControl
      rw [arrived]
      exact List.mem_cons_self
  | rightEnds reason right taken =>
      have effect := endStep_answering .none taken
      exact
        @rightLoops (.loopEnds reason) .none link.left.outbox rfl rfl rfl
          (fun _ _ isControl => by cases isControl)
          (fun _ _ isCommand => by cases isCommand) taken effect
  | received chunk rest right isFront taken => exact unasked.rightTask taken
  | rightRecv task right notReceive taken =>
      exact @rightTask link right task link.left.fileOut unasked taken

end Link.Unasked

end Quiczilla
