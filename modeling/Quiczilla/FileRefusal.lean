import Quiczilla.FileDelivery

/-!
# A refused file transfer

There is one offer, so the receiving application answers once: it accepts, or
it refuses and then nothing of the receiving side is ever touched.
-/

namespace Quiczilla

open Foundation

/-! ## Nothing is accepted -/

/-- The receiving side is as it was. -/
structure Peer.Spared (files : Files) (peer : Peer) : Prop where
  side : peer.recvSide = (Peer.initial files).recvSide
  noAccept : peer.coordinator.pendingAccept = none

theorem spared_initial (files : Files) : (Peer.initial files).Spared files where
  side := rfl
  noAccept := rfl

theorem applied_of_spared
    {files : Files} {peer : Peer} {label : PeerLabel}
    (spared : peer.Spared files)
    (noCommand :
      ∀ saveDir checksum resume faults,
        label ≠ .command (.acceptFile saveDir checksum resume) faults) :
    peer.applied label = none := by
  cases label with
  | control letter faults =>
      obtain ⟨message, offer⟩ := letter
      cases message <;> simp [Peer.applied, spared.noAccept]
  | command command faults =>
      cases command with
      | acceptFile saveDir checksum resume =>
          exact absurd rfl (noCommand saveDir checksum resume faults)
      | _ => rfl
  | _ => rfl

/-- Without an accept the receiving side stays as it is. -/
theorem peerStep_spared
    {files : Files} {peer next : Peer} {label : PeerLabel}
    (spared : peer.Spared files)
    (noCommand :
      ∀ saveDir checksum resume faults,
        label ≠ .command (.acceptFile saveDir checksum resume) faults)
    (stepped : peerStep peer label = some next) : next.Spared files := by
  have noneWaits : peer.coordinator.pendingResumeRecv = none :=
    congrArg RecvSide.pendingResumeRecv spared.side
  have noneApplied := applied_of_spared spared noCommand
  constructor
  · obtain effect | ⟨task, isTask, -⟩ := peerStep_effect stepped
    · generalize next.recvSide = side at effect
      cases effect with
      | quiet _ => exact spared.side
      | accepted applied faults side isApplied _ _ =>
          rw [noneApplied] at isApplied
          cases isApplied
      | resumed job _ _ waits =>
          rw [noneWaits] at waits
          cases waits
      | restarted job _ _ waits =>
          rw [noneWaits] at waits
          cases waits
      | recreated job partPath created _ _ waits _ _ =>
          rw [noneWaits] at waits
          cases waits
    · -- There is nothing for the receive task to do.
      have idle : peer.receiver = .idle :=
        congrArg RecvSide.receiver spared.side
      have noneQueued : peer.recvQueue = [] :=
        congrArg RecvSide.recvQueue spared.side
      rw [isTask] at stepped
      have stepped : peer.recvStep task = some next := stepped
      unfold Peer.recvStep at stepped
      rw [idle, noneQueued] at stepped
      cases task <;> cases stepped
  · have slots := peerStep_slots stepped
    have isSlots : peer.slots.accept = none := spared.noAccept
    change next.slots.accept = none
    generalize next.slots = others at slots
    cases slots with
    | unchanged => exact isSlots
    | offered name size isMessage noAccept => rfl
    | autoAccepted => rfl
    | taken => exact isSlots
    | waiting accept isCommand =>
        obtain ⟨faults, isLabel⟩ := isCommand
        exact absurd isLabel (noCommand _ _ _ faults)

/-! ## Rejections -/

def FileTransferStatus.isRejection (status : FileTransferStatus) : Bool :=
  status.exitCode == conflictRefusal

/-- A rejection is under way, or the sending side has been told of one. -/
def Link.Rejects (link : Link) : Prop :=
  (∃ message ∈ link.right.finals, ∃ status,
      message.report? = some status ∧ status.isRejection = true) ∨
    ∃ status ∈ link.left.reports, status.isRejection = true

theorem rejects_same
    {link next : Link} (rejects : next.Rejects)
    (finals : ∀ message ∈ next.right.finals, message ∈ link.right.finals)
    (reports : next.left.reports = link.left.reports) : link.Rejects := by
  obtain ⟨message, member, isRejection⟩ | ⟨status, member, isRejection⟩ :=
    rejects
  · exact Or.inl ⟨message, finals message member, isRejection⟩
  · rw [reports] at member
    exact Or.inr ⟨status, member, isRejection⟩

/-- What the receive task adds is no rejection. -/
theorem recvStep_rejects
    {peer next : Peer} {task : RecvLabel}
    (stepped : peer.recvStep task = some next) :
    ∀ message ∈ next.finals, ∀ status, message.report? = some status →
      status.isRejection = true → message ∈ peer.finals := by
  have added {told : ControlMessage} {report : FileTransferStatus}
      (isNext : next.finals = peer.finals ++ [told])
      (isReport : told.report? = some report)
      (noRejection : report.isRejection = false) :
      ∀ message ∈ next.finals, ∀ status, message.report? = some status →
        status.isRejection = true → message ∈ peer.finals := by
    intro message member status isStatus isRejection
    rw [isNext] at member
    obtain earlier | last := List.mem_append.mp member
    · exact earlier
    · rw [List.mem_singleton.mp last, isReport] at isStatus
      rw [← Option.some.inj isStatus, noRejection] at isRejection
      cases isRejection
  cases recvStep_verdict stepped with
  | silent _ _ isNext =>
      have same : next.finals = peer.finals :=
        congrArg FinalSide.finals isNext
      rw [same]
      exact fun message member _ _ _ => member
  | judged comparison rest message _ _ _ isReport _ isNext =>
      refine added (congrArg FinalSide.finals isNext) isReport ?_
      by_cases passes : comparison.passes = true
      · simp [Comparison.status, passes, FileTransferStatus.isRejection,
          FileTransferStatus.exitCode, conflictRefusal]
      · simp [Comparison.status, passes, FileTransferStatus.isRejection,
          FileTransferStatus.exitCode, conflictRefusal, integrityFailure]
  | uncommitted comparison rest _ _ _ _ _ isNext =>
      exact
        @added .receivedFileFailed .hashFailed
          (congrArg FinalSide.finals isNext) rfl (by decide)
  | gaveUp _ _ _ isNext =>
      exact
        @added .receivedFileFailed .hashFailed
          (congrArg FinalSide.finals isNext) rfl (by decide)

/-- Only the receiving application rejects. -/
theorem linkStep_rejects
    {link next : Link} {label : LinkLabel} (informed : link.Informed)
    (noReject : ∀ faults, label ≠ .rightCommand .rejectFile faults)
    (stepped : linkStep link label = some next) (rejects : next.Rejects) :
    link.Rejects := by
  have leftLoops {peerLabel : PeerLabel} {left : Peer}
      {outbox : List Letter} (isLoop : peerLabel.isLoop = true)
      (fewer :
        ∀ message ∈ (link.right.withOutbox outbox).finals,
          message ∈ link.right.finals)
      (reports :
        ∀ status ∈ (link.left.finalSide.after peerLabel).reports,
          status ∈ link.left.reports ∨
            ∃ message ∈ link.right.finals, message.report? = some status)
      (taken : peerStep link.left peerLabel = some left)
      (rejects : Link.Rejects ⟨left, link.right.withOutbox outbox⟩) :
      link.Rejects := by
    obtain ⟨side, -, -⟩ := loopStep_finalSide isLoop taken
    have isReports :
        left.reports = (link.left.finalSide.after peerLabel).reports :=
      congrArg FinalSide.reports side
    obtain ⟨message, member, isRejection⟩ | ⟨status, member, isRejection⟩ :=
      rejects
    · exact Or.inl ⟨message, fewer message member, isRejection⟩
    · change status ∈ left.reports at member
      rw [isReports] at member
      obtain earlier | ⟨message, isMember, isStatus⟩ := reports status member
      · exact Or.inr ⟨status, earlier, isRejection⟩
      · exact Or.inl ⟨message, isMember, status, isStatus, isRejection⟩
  have rightTasks {task : RecvLabel} {left right : Peer}
      (reports : left.reports = link.left.reports)
      (taken : link.right.recvStep task = some right)
      (rejects : Link.Rejects ⟨left, right⟩) : link.Rejects := by
    obtain ⟨message, member, status, isStatus, isRejection⟩ |
        ⟨status, member, isRejection⟩ := rejects
    · exact
        Or.inl
          ⟨message,
            recvStep_rejects taken message member status isStatus
              isRejection,
            status, isStatus, isRejection⟩
    · change status ∈ left.reports at member
      rw [reports] at member
      exact Or.inr ⟨status, member, isRejection⟩
  cases linkStep_effect stepped with
  | leftCommand command faults left isSend taken =>
      refine
        @leftLoops _ left link.right.outbox rfl (fun _ member => member) ?_
          taken rejects
      rw [after_sends _ faults isSend]
      exact fun status member => Or.inl member
  | leftControl faults letter rest left arrived taken =>
      refine leftLoops rfl ?_ ?_ taken rejects
      · intro message member
        rw [Peer.finals, arrived, List.map_cons, List.filter_cons]
        split
        · exact List.mem_cons_of_mem _ member
        · exact member
      · intro status member
        obtain earlier | now := List.mem_append.mp member
        · exact Or.inl earlier
        · have isStatus := Option.mem_toList.mp now
          refine Or.inr ⟨letter.message, ?_, isStatus⟩
          have isFinal : letter.message.isFinal = true := by
            rw [ControlMessage.isFinal, isStatus]
            rfl
          rw [Peer.finals, arrived, List.map_cons, List.filter_cons,
            if_pos isFinal]
          exact List.mem_cons_self
  | leftEnds reason left taken =>
      exact
        @leftLoops (.loopEnds reason) left link.right.outbox rfl
          (fun _ member => member) (fun _ member => Or.inl member) taken
          rejects
  | leftSend task left taken =>
      exact
        rejects_same rejects (fun _ member => member)
          (sendStep_reports informed.inline taken)
  | rightCommand command faults right receives taken =>
      obtain ⟨side, -, -⟩ := loopStep_finalSide rfl taken
      refine rejects_same rejects ?_ rfl
      have finals : right.finals = link.right.finals := by
        refine (congrArg FinalSide.finals side).trans ?_
        cases command with
        | rejectFile => exact absurd rfl (noReject faults)
        | _ => rfl
      rw [finals]
      exact fun _ member => member
  | rightControl faults letter rest right arrived taken =>
      obtain ⟨side, -, -⟩ := loopStep_finalSide rfl taken
      have finals : right.finals = link.right.finals :=
        congrArg FinalSide.finals side
      refine rejects_same rejects ?_ rfl
      rw [finals]
      exact fun _ member => member
  | rightEnds reason right taken =>
      obtain ⟨side, -, -⟩ := loopStep_finalSide rfl taken
      have finals : right.finals = link.right.finals :=
        congrArg FinalSide.finals side
      refine rejects_same rejects ?_ rfl
      rw [finals]
      exact fun _ member => member
  | received chunk rest right isFront taken =>
      exact @rightTasks _ (link.left.withFileOut rest) _ rfl taken rejects
  | rightRecv task right notReceive taken =>
      exact rightTasks rfl taken rejects

/-! ## One offer -/

/-- The offers under way and those that the receiving application is told. -/
def Link.offersMade (link : Link) : Nat :=
  link.left.offersOut.length +
    (link.right.events.filter PeerEvent.isOffer).length

theorem handleCommand_offersMade
    (peer : Peer) {command : PeerCommand} (faults : Faults)
    (isSend : command.sends = true) :
    (peer.handleCommand command faults).offersOut.length +
        peer.coordinator.announced.length =
      peer.offersOut.length +
        (peer.handleCommand command faults).coordinator.announced.length := by
  cases command with
  | sendFile path checksum resume =>
      simp only [Peer.handleCommand, Peer.handleSendFile]
      split
      · rfl
      · split
        · simp only [Peer.offersOut, Peer.announce, Peer.send, Peer.emit,
            List.filter_append, List.length_append]
          simp [ControlMessage.isMetadata]
          omega
        · rfl
  | acceptFile saveDir checksum resume => cases isSend
  | rejectFile => cases isSend
  | pause =>
      exact
        congrArg (fun letters : List Letter => letters.length + _)
          (send_offersOut (peer.setPaused true) 0 rfl)
  | resume =>
      exact
        congrArg (fun letters : List Letter => letters.length + _)
          (send_offersOut (peer.setPaused false) 0 rfl)
  | disconnect => rfl

theorem linkStep_offersMade
    {link next : Link} {label : LinkLabel} (sends : link.left.OnlySends)
    (stepped : linkStep link label = some next) :
    next.offersMade + link.left.coordinator.announced.length ≤
      link.offersMade + next.left.coordinator.announced.length := by
  have leftSame {left : Peer} {right : Peer}
      (offers : left.offersOut = link.left.offersOut)
      (announced :
        left.coordinator.announced = link.left.coordinator.announced)
      (events : right.events = link.right.events) :
      Link.offersMade ⟨left, right⟩ +
          link.left.coordinator.announced.length ≤
        link.offersMade + left.coordinator.announced.length := by
    rw [Link.offersMade, offers, announced, events]
    exact Nat.le_refl _
  have rightAdds {offered : List PeerEvent} {left right : Peer}
      (added : EventsAdded offered link.right.events right.events)
      (fewer :
        left.offersOut.length + offered.length ≤
          link.left.offersOut.length)
      (announced :
        left.coordinator.announced = link.left.coordinator.announced) :
      Link.offersMade ⟨left, right⟩ +
          link.left.coordinator.announced.length ≤
        link.offersMade + left.coordinator.announced.length := by
    simp only [Link.offersMade, added.offers, List.length_append, announced]
    omega
  cases linkStep_effect stepped with
  | leftCommand command faults left isSend taken =>
      have counted := handleCommand_offersMade link.left faults isSend
      rw [← peerStep_command taken] at counted
      simp only [Link.offersMade]
      omega
  | leftControl faults letter rest left arrived taken =>
      have isNext := peerStep_control taken
      refine leftSame ?_ ?_ rfl
      · rw [isNext]
        exact dispatch_offersOut sends letter faults
      · obtain same | ⟨_, _, isCommand, -, -⟩ :=
          loopStep_announced sends (fun _ _ isCommand => by cases isCommand)
            rfl taken
        · exact same
        · cases isCommand
  | leftEnds reason left taken =>
      refine leftSame ?_ ?_ rfl
      · rw [peerStep_ends taken]
        cases reason <;> rfl
      · rw [peerStep_ends taken]
        cases reason <;> rfl
  | leftSend task left taken =>
      refine leftSame (sendStep_offersOut taken) ?_ rfl
      exact congrArg Coordinator.announced (sendStep_files taken).2
  | rightCommand command faults right receives taken =>
      exact rightAdds (peerStep_events taken) (Nat.le_refl _) rfl
  | rightControl faults letter rest right arrived taken =>
      refine rightAdds (peerStep_events taken) ?_ rfl
      have out :
          link.left.offersOut =
            (letter :: rest).filter fun letter =>
              letter.message.isMetadata := by
        rw [Peer.offersOut, arrived]
      have isRest :
          (link.left.withOutbox rest).offersOut =
            rest.filter fun letter => letter.message.isMetadata := rfl
      rw [out, isRest, List.filter_cons]
      obtain ⟨message, offer⟩ := letter
      cases message <;>
        simp [PeerLabel.offered, PeerLabel.message, ControlMessage.offered,
          ControlMessage.isMetadata]
  | rightEnds reason right taken =>
      exact rightAdds (peerStep_events taken) (Nat.le_refl _) rfl
  | received chunk rest right isFront taken =>
      exact rightAdds (recvStep_events taken) (Nat.le_refl _) rfl
  | rightRecv task right notReceive taken =>
      exact rightAdds (recvStep_events taken) (Nat.le_refl _) rfl

/-- What becomes of the receiving side without a command. -/
theorem linkStep_right
    {link next : Link} {label : LinkLabel}
    (noCommand : ∀ command faults, label ≠ .rightCommand command faults)
    (stepped : linkStep link label = some next) :
    (∃ offered, EventsAdded offered link.right.events next.right.events) ∧
      ∀ files, link.right.Spared files → next.right.Spared files := by
  have moves {peerLabel : PeerLabel} {right : Peer}
      (noAccept :
        ∀ saveDir checksum resume faults,
          peerLabel ≠
            .command (.acceptFile saveDir checksum resume) faults)
      (taken : peerStep link.right peerLabel = some right) :
      (∃ offered, EventsAdded offered link.right.events right.events) ∧
        ∀ files, link.right.Spared files → right.Spared files :=
    ⟨⟨_, peerStep_events taken⟩,
      fun files spared => peerStep_spared spared noAccept taken⟩
  have rests :
      (∃ offered, EventsAdded offered link.right.events link.right.events) ∧
        ∀ files, link.right.Spared files → link.right.Spared files :=
    ⟨⟨[], eventsAdded_same rfl⟩, fun _ spared => spared⟩
  cases linkStep_effect stepped with
  | leftCommand command faults left isSend taken => exact rests
  | leftControl faults letter rest left arrived taken =>
      exact
        ⟨⟨[], eventsAdded_same rfl⟩,
          fun _ spared => ⟨spared.side, spared.noAccept⟩⟩
  | leftEnds reason left taken => exact rests
  | leftSend task left taken => exact rests
  | rightCommand command faults right receives taken =>
      exact absurd rfl (noCommand command faults)
  | rightControl faults letter rest right arrived taken =>
      exact moves (fun _ _ _ _ isCommand => by cases isCommand) taken
  | rightEnds reason right taken =>
      exact moves (fun _ _ _ _ isCommand => by cases isCommand) taken
  | received chunk rest right isFront taken =>
      exact
        @moves (.recv (.receive chunk)) right
          (fun _ _ _ _ isCommand => by cases isCommand) taken
  | rightRecv task right notReceive taken =>
      exact
        @moves (.recv task) right
          (fun _ _ _ _ isCommand => by cases isCommand) taken

/-! ## One answer -/

/-- The offers that the receiving application has taken. -/
def FileTransfer.offersSeen (transfer : FileTransfer) : List PeerEvent :=
  (transfer.worker.peer.events.take transfer.worker.seen).filter
    PeerEvent.isOffer

/-- Before the offer nothing is answered, behind a rejection nothing is
accepted, and without an accept the receiving side is as it was. -/
structure FileTransfer.Judges
    (files : Files) (transfer : FileTransfer) : Prop where
  taken : transfer.worker.seen ≤ transfer.worker.peer.events.length
  single :
    transfer.link.offersMade ≤ transfer.left.coordinator.announced.length
  fresh :
    transfer.offersSeen = [] →
      transfer.worker.commands = [] ∧ transfer.worker.approved = [] ∧
        ¬transfer.link.Rejects
  refused :
    transfer.link.Rejects ∨ .rejectFile ∈ transfer.worker.commands →
      transfer.worker.approved = []
  spared :
    transfer.worker.approved = [] →
      transfer.worker.peer.Spared files ∧
        ∀ command ∈ transfer.worker.commands, command = .rejectFile

namespace FileTransfer.Judges

variable {config : FileCliConfig} {receiver : WorkerConfig}
  {leftFiles rightFiles : Files} {transfer next : FileTransfer}

theorem start
    (config : FileCliConfig) (receiver : WorkerConfig)
    (leftFiles rightFiles : Files) :
    (FileTransfer.start config receiver leftFiles rightFiles).Judges
      rightFiles := by
  have noRejects :
      ¬(FileTransfer.start config receiver leftFiles
        rightFiles).link.Rejects := by
    rintro (⟨message, member, -⟩ | ⟨status, member, -⟩)
    · cases member
    · cases member
  refine ⟨Nat.zero_le _, Nat.le_refl 0, ?_, ?_, ?_⟩
  · exact fun _ => ⟨rfl, rfl, noRejects⟩
  · exact fun _ => rfl
  · intro _
    refine ⟨spared_initial rightFiles, ?_⟩
    intro command member
    cases member

/-- The link moves on, and the receiving application does not. -/
theorem moved
    {offered : List PeerEvent} (judges : transfer.Judges rightFiles)
    (seen : next.worker.seen = transfer.worker.seen)
    (commands : next.worker.commands = transfer.worker.commands)
    (approved : next.worker.approved = transfer.worker.approved)
    (added :
      EventsAdded offered transfer.worker.peer.events
        next.worker.peer.events)
    (single :
      next.link.offersMade ≤ next.left.coordinator.announced.length)
    (rejects : next.link.Rejects → transfer.link.Rejects)
    (spares :
      transfer.worker.peer.Spared rightFiles →
        next.worker.peer.Spared rightFiles) :
    next.Judges rightFiles := by
  have sameSeen : next.offersSeen = transfer.offersSeen := by
    rw [FileTransfer.offersSeen, seen, added.take judges.taken]
    rfl
  constructor
  · rw [seen]
    exact judges.taken.trans added.prefix.length_le
  · exact single
  · rw [sameSeen, commands, approved]
    intro nothing
    obtain ⟨noCommands, notApproved, noRejects⟩ := judges.fresh nothing
    exact ⟨noCommands, notApproved, fun isNext => noRejects (rejects isNext)⟩
  · rw [commands, approved]
    intro isNext
    exact judges.refused (isNext.imp_left rejects)
  · rw [commands, approved]
    intro notApproved
    obtain ⟨spared, refuses⟩ := judges.spared notApproved
    exact ⟨spares spared, refuses⟩

/-- The sending application takes a turn, or cancels. -/
theorem turned
    (judges : transfer.Judges rightFiles)
    (worker : next.worker = transfer.worker)
    (left :
      ∃ cancelled,
        next.left = { transfer.left with cancelled := cancelled }) :
    next.Judges rightFiles := by
  obtain ⟨cancelled, isLeft⟩ := left
  have isLink :
      next.link =
        ⟨{ transfer.left with cancelled := cancelled },
          transfer.worker.peer⟩ := by
    rw [FileTransfer.link, isLeft, worker]
  refine
    judges.moved (by rw [worker]) (by rw [worker]) (by rw [worker])
      (eventsAdded_same (by rw [worker])) ?_ ?_ ?_
  · rw [isLink, isLeft]
    exact judges.single
  · rw [isLink]
    exact fun rejects => rejects
  · rw [worker]
    exact fun spared => spared

theorem delivered
    {command : PeerCommand} {rest : List PeerCommand} {faults : Faults}
    {right : Peer} (judges : transfer.Judges rightFiles)
    (follows : transfer.Follows config receiver)
    (isFirst : transfer.worker.commands = command :: rest)
    (taken :
      peerStep transfer.worker.peer (.command command faults) =
        some right) :
    FileTransfer.Judges rightFiles
      { transfer with
        worker :=
          { transfer.worker with peer := right, commands := rest } } := by
  have stepped := follows.rightCommand isFirst taken
  have added : EventsAdded [] transfer.worker.peer.events right.events :=
    peerStep_events taken
  have offers := linkStep_offersMade follows.attended.sends stepped
  have isAnswered : transfer.offersSeen ≠ [] := by
    intro nothing
    have noCommands := (judges.fresh nothing).1
    rw [isFirst] at noCommands
    cases noCommands
  have seen :
      (right.events.take transfer.worker.seen).filter PeerEvent.isOffer =
        transfer.offersSeen := by
    rw [added.take judges.taken]
    rfl
  have isLater (command : PeerCommand) (member : command ∈ rest) :
      command ∈ transfer.worker.commands := by
    rw [isFirst]
    exact List.mem_cons_of_mem _ member
  constructor
  · exact judges.taken.trans added.prefix.length_le
  · have single := judges.single
    change
      Link.offersMade ⟨transfer.left, right⟩ ≤
        transfer.left.coordinator.announced.length
    have offers :
        Link.offersMade ⟨transfer.left, right⟩ +
            transfer.left.coordinator.announced.length ≤
          transfer.link.offersMade +
            transfer.left.coordinator.announced.length := offers
    omega
  · intro nothing
    exact absurd (seen.symm.trans nothing) isAnswered
  · intro isNext
    by_cases refuses : .rejectFile ∈ transfer.worker.commands
    · exact judges.refused (Or.inr refuses)
    · obtain rejects | member := isNext
      · refine judges.refused (Or.inl ?_)
        refine
          linkStep_rejects follows.attended.informed ?_ stepped rejects
        intro others isCommand
        cases isCommand
        rw [isFirst] at refuses
        exact refuses List.mem_cons_self
      · exact absurd (isLater _ member) refuses
  · intro notApproved
    obtain ⟨spared, refuses⟩ := judges.spared notApproved
    refine ⟨?_, fun other member => refuses other (isLater other member)⟩
    refine peerStep_spared spared ?_ taken
    intro saveDir checksum resume others isCommand
    cases isCommand
    have isRefusal : PeerCommand.acceptFile saveDir checksum resume =
        .rejectFile := by
      apply refuses
      rw [isFirst]
      exact List.mem_cons_self
    cases isRefusal

/-- An offer that is taken is the first one. -/
theorem unanswered
    {event : PeerEvent} (judges : transfer.Judges rightFiles)
    (follows : transfer.Follows config receiver)
    (isNext :
      transfer.worker.peer.events[transfer.worker.seen]? = some event)
    (isOffer : event.isOffer = true) : transfer.offersSeen = [] := by
  have once := follows.once
  have greeted := follows.greeted
  have single := judges.single
  have fewer :
      (transfer.left.events.take transfer.cli.seen).count .connected ≤
        transfer.left.events.count .connected :=
    (List.take_sublist _ _).count_le _
  have more :
      ((transfer.worker.peer.events.take (transfer.worker.seen + 1)).filter
          PeerEvent.isOffer).length ≤
        (transfer.worker.peer.events.filter PeerEvent.isOffer).length :=
    ((List.take_sublist _ _).filter _).length_le
  rw [List.take_add_one, isNext, List.filter_append, List.length_append]
    at more
  have isOne : ((some event).toList.filter PeerEvent.isOffer).length = 1 := by
    simp [isOffer]
  have isLink :
      transfer.link.offersMade =
        transfer.left.offersOut.length +
          (transfer.worker.peer.events.filter PeerEvent.isOffer).length :=
    rfl
  rw [FileTransfer.offersSeen, ← List.length_eq_zero_iff]
  omega

/-- The receiving application answers the offer. -/
theorem offered
    {name : String} {size : Nat} {resume checksum : Bool}
    (judges : transfer.Judges rightFiles)
    (follows : transfer.Follows config receiver)
    (isNext :
      transfer.worker.peer.events[transfer.worker.seen]? =
        some (.fileOffered name size resume checksum)) :
    FileTransfer.Judges rightFiles
      { transfer with
        worker :=
          { transfer.worker with
            seen := transfer.worker.seen + 1 }.answer
              (.fileOffered name size resume checksum) } := by
  obtain ⟨noCommands, notApproved, noRejects⟩ :=
    judges.fresh (judges.unanswered follows isNext rfl)
  obtain ⟨spared, -⟩ := judges.spared notApproved
  obtain ⟨within, -⟩ := List.getElem?_eq_some_iff.mp isNext
  have isSeen :
      (transfer.worker.peer.events.take
          (transfer.worker.seen + 1)).filter PeerEvent.isOffer ≠ [] := by
    rw [List.take_add_one, isNext, List.filter_append]
    simp [PeerEvent.isOffer]
  simp only [Worker.answer]
  split
  · refine
      ⟨within, judges.single, fun nothing => absurd nothing isSeen, ?_, ?_⟩
    · exact fun _ => notApproved
    · intro _
      refine ⟨spared, ?_⟩
      change ∀ command ∈ transfer.worker.commands, _
      rw [noCommands]
      exact fun command member => by cases member
  · rename_i command answered
    refine
      ⟨within, judges.single, fun nothing => absurd nothing isSeen, ?_, ?_⟩
    · rintro (rejects | member)
      · exact absurd rejects noRejects
      · change .rejectFile ∈ transfer.worker.commands ++ [command] at member
        rw [noCommands] at member
        rw [← List.mem_singleton.mp member]
        exact notApproved
    · intro nothing
      refine ⟨spared, ?_⟩
      change ∀ other ∈ transfer.worker.commands ++ [command], _
      rw [noCommands]
      intro other member
      rw [List.mem_singleton.mp member]
      obtain refuses | ⟨safeName, isName, isAccept⟩ :=
        answerOffer_command answered
      · exact refuses
      · -- An accept is approved.
        subst isAccept
        have isApproved :
            transfer.worker.approved ++
                ((fileName (components name)).map
                  transfer.worker.config.destination).toList = [] :=
          nothing
        rw [isName] at isApproved
        simp at isApproved

theorem answered
    {event : PeerEvent} (judges : transfer.Judges rightFiles)
    (follows : transfer.Follows config receiver)
    (isNext :
      transfer.worker.peer.events[transfer.worker.seen]? = some event) :
    FileTransfer.Judges rightFiles
      { transfer with
        worker :=
          { transfer.worker with
            seen := transfer.worker.seen + 1 }.answer event } := by
  obtain ⟨within, -⟩ := List.getElem?_eq_some_iff.mp isNext
  have others (isOther : event.isOffer = false) (running cancelled : Bool) :
      FileTransfer.Judges rightFiles
        { transfer with
          worker :=
            { transfer.worker with
              seen := transfer.worker.seen + 1
              running := running
              peer :=
                { transfer.worker.peer with cancelled := cancelled } } } := by
    have sameSeen :
        (transfer.worker.peer.events.take
            (transfer.worker.seen + 1)).filter PeerEvent.isOffer =
          transfer.offersSeen := by
      rw [List.take_add_one, isNext, List.filter_append,
        FileTransfer.offersSeen]
      simp [isOther]
    refine ⟨within, judges.single, ?_, judges.refused, ?_⟩
    · intro nothing
      exact judges.fresh (sameSeen.symm.trans nothing)
    · intro notApproved
      obtain ⟨spared, refuses⟩ := judges.spared notApproved
      exact ⟨⟨spared.side, spared.noAccept⟩, refuses⟩
  cases event with
  | fileOffered name size resume checksum =>
      exact judges.offered follows isNext
  | transferComplete status => exact others rfl false true
  | disconnected reason => exact others rfl false true
  | _ =>
      exact
        others rfl transfer.worker.running transfer.worker.peer.cancelled

theorem step
    {label : TransferLabel} (judges : transfer.Judges rightFiles)
    (follows : transfer.Follows config receiver)
    (stepped : transferStep transfer label = some next) :
    next.Judges rightFiles := by
  have single := judges.single
  have sends := follows.attended.sends
  have same :
      ∃ cancelled,
        transfer.left = { transfer.left with cancelled := cancelled } :=
    ⟨transfer.left.cancelled, rfl⟩
  cases transferStep_effect stepped with
  | linked label link notCommand taken =>
      have offers := linkStep_offersMade sends taken
      have noCommand (command : PeerCommand) (faults : Faults) :
          label ≠ .rightCommand command faults := by
        intro isCommand
        rw [isCommand] at notCommand
        cases notCommand
      obtain ⟨⟨offered, added⟩, spares⟩ := linkStep_right noCommand taken
      refine judges.moved rfl rfl rfl added ?_ ?_ (spares rightFiles)
      · change link.offersMade ≤ link.left.coordinator.announced.length
        have isLeft :
            transfer.link.left.coordinator.announced =
              transfer.left.coordinator.announced := rfl
        rw [isLeft] at offers
        omega
      · exact
          linkStep_rejects follows.attended.informed
            (fun faults => noCommand .rejectFile faults) taken
  | commanded faults command rest link isFirst taken =>
      have offers := linkStep_offersMade sends taken
      have noCommand (other : PeerCommand) (others : Faults) :
          LinkLabel.leftCommand command faults ≠
            .rightCommand other others := by
        simp
      obtain ⟨⟨offered, added⟩, spares⟩ := linkStep_right noCommand taken
      refine judges.moved rfl rfl rfl added ?_ ?_ (spares rightFiles)
      · change link.offersMade ≤ link.left.coordinator.announced.length
        have isLeft :
            transfer.link.left.coordinator.announced =
              transfer.left.coordinator.announced := rfl
        rw [isLeft] at offers
        omega
      · exact
          linkStep_rejects follows.attended.informed
            (fun others => noCommand .rejectFile others) taken
  | told unsent event next isNext isOpen isAnswer =>
      rw [isAnswer]
      cases event with
      | connected =>
          cases unsent with
          | none => exact judges.turned rfl same
          | some error => exact judges.turned rfl ⟨true, rfl⟩
      | transferComplete status => exact judges.turned rfl ⟨true, rfl⟩
      | disconnected reason => exact judges.turned rfl ⟨true, rfl⟩
      | _ => exact judges.turned rfl same
  | pressed key isOpen =>
      unfold FileTransfer.press
      split
      · split
        · split
          · exact judges.turned rfl same
          · exact judges.turned rfl same
        · split
          · exact judges.turned rfl ⟨true, rfl⟩
          · split
            · exact judges.turned rfl ⟨true, rfl⟩
            · exact judges
      · exact judges
  | left label outcome notReported isOpen =>
      exact judges.turned rfl ⟨true, rfl⟩
  | closed => exact judges.turned rfl same
  | delivered faults command rest right isFirst taken =>
      exact judges.delivered follows isFirst taken
  | answered event isNext => exact judges.answered follows isNext

end FileTransfer.Judges

/-! ## Both outcomes -/

section Outcomes

variable {config : FileCliConfig} {receiver : WorkerConfig}
  {leftFiles rightFiles : Files} {transfer next : FileTransfer}
  {labels : List TransferLabel}

theorem judges_of_run
    (run :
      Run transferStep anyStep
        (.start config receiver leftFiles rightFiles) labels transfer) :
    transfer.Follows config receiver ∧ transfer.Judges rightFiles := by
  refine
    run.preserves
      (fun transfer =>
        transfer.Follows config receiver ∧ transfer.Judges rightFiles)
      ?_
      ⟨FileTransfer.Follows.start config receiver leftFiles rightFiles,
        FileTransfer.Judges.start config receiver leftFiles rightFiles⟩
  intro transfer label next holds _ stepped
  exact ⟨holds.1.step stepped, holds.2.step holds.1 stepped⟩

/-- If the CLI ends because of a rejection, the receiving side has not touched
a file, whatever else happens in the run. -/
theorem refused_file_transfer_spares
    (run :
      Run transferStep anyStep
        (.start config receiver leftFiles rightFiles) labels transfer)
    {status : FileTransferStatus}
    (ended : transfer.cli.outcome = some (.reported status))
    (conflict : status.exitCode = conflictRefusal) :
    transfer.worker.peer.files = rightFiles ∧
      transfer.worker.peer.touched = [] ∧ transfer.worker.approved = [] := by
  obtain ⟨follows, judges⟩ := judges_of_run run
  have told : status ∈ transfer.left.reports :=
    mem_reports.mpr (follows.reported status ended)
  have rejects : transfer.link.Rejects := by
    refine Or.inr ⟨status, told, ?_⟩
    rw [FileTransferStatus.isRejection, conflict]
    rfl
  have notApproved := judges.refused (Or.inl rejects)
  obtain ⟨spared, -⟩ := judges.spared notApproved
  exact
    ⟨congrArg RecvSide.files spared.side,
      congrArg RecvSide.touched spared.side, notApproved⟩

/-- The receiving application goes on without an accept. -/
theorem transferStep_refuses
    {label : TransferLabel}
    (refuses : receiver.conflictPolicy = .refuse)
    (noResume : receiver.resume = false)
    (unresumed : config.resume = false)
    (present :
      ∀ safeName,
        fileName (components (offeredName config.path)) = some safeName →
          rightFiles.isPresent (receiver.destination safeName) = true)
    (follows : transfer.Follows config receiver)
    (judges : transfer.Judges rightFiles)
    (notApproved : transfer.worker.approved = [])
    (stepped : transferStep transfer label = some next) :
    next.worker.approved = [] := by
  cases transferStep_effect stepped with
  | told unsent event next isNext isOpen same =>
      rw [same]
      cases event with
      | connected => cases unsent <;> exact notApproved
      | _ => exact notApproved
  | pressed key isOpen =>
      unfold FileTransfer.press
      split
      · split
        · split <;> exact notApproved
        · split
          · exact notApproved
          · split <;> exact notApproved
      · exact notApproved
  | answered event isNext =>
      cases event with
      | fileOffered name size resume checksum =>
          have tells :=
            follows.attended.flagged.told name size resume checksum
              (List.mem_of_getElem? isNext)
          obtain ⟨spared, -⟩ := judges.spared notApproved
          have files : transfer.worker.peer.files = rightFiles :=
            congrArg RecvSide.files spared.side
          simp only [Worker.answer]
          split
          · exact notApproved
          · rename_i command answered
            rw [files, follows.worker] at answered
            obtain isRefusal | ⟨safeName, isName, isAccept⟩ :=
              answerOffer_command answered
            · rw [isRefusal]
              exact notApproved
            · -- The destination is there, so the offer is refused.
              have isPresent : rightFiles.isPresent
                  (receiver.destination safeName) = true := by
                apply present
                rw [← isName, tells.name]
                rfl
              have isResume : resume = false :=
                tells.resume.trans unresumed
              rw [isAccept, WorkerConfig.answerOffer, isName] at answered
              simp [refuses, isPresent, noResume, isResume] at answered
      | _ => exact notApproved
  | _ => exact notApproved

/-- Under `--on-conflict refuse` and without `--resume` an existing destination
stays as it is, and the CLI does not end with exit code zero unless the file
was sent over SSH instead. -/
theorem existing_destination_kept
    (refuses : receiver.conflictPolicy = .refuse)
    (noResume : receiver.resume = false)
    (unresumed : config.resume = false)
    (present :
      ∀ safeName,
        fileName (components (offeredName config.path)) = some safeName →
          rightFiles.isPresent (receiver.destination safeName) = true)
    (run :
      Run transferStep anyStep
        (.start config receiver leftFiles rightFiles) labels transfer) :
    transfer.worker.peer.files = rightFiles ∧
      transfer.worker.peer.touched = [] ∧
        ∀ outcome, transfer.cli.outcome = some outcome →
          ∀ table request session,
            outcome.exitCode config.client table
                (fallbackExitCode (runSshFallback request session)) = 0 →
              config.client = .bootstrapped .auto ∧
                session.Transfers request := by
  obtain ⟨follows, judges, notApproved⟩ :
      transfer.Follows config receiver ∧ transfer.Judges rightFiles ∧
        transfer.worker.approved = [] := by
    refine
      run.preserves
        (fun transfer =>
          transfer.Follows config receiver ∧ transfer.Judges rightFiles ∧
            transfer.worker.approved = [])
        ?_
        ⟨FileTransfer.Follows.start config receiver leftFiles rightFiles,
          FileTransfer.Judges.start config receiver leftFiles rightFiles,
          rfl⟩
    intro transfer label next holds _ stepped
    obtain ⟨follows, judges, notApproved⟩ := holds
    exact
      ⟨follows.step stepped, judges.step follows stepped,
        transferStep_refuses refuses noResume unresumed present follows
          judges notApproved stepped⟩
  obtain ⟨spared, -⟩ := judges.spared notApproved
  refine
    ⟨congrArg RecvSide.files spared.side,
      congrArg RecvSide.touched spared.side, ?_⟩
  intro outcome ended table request session exits
  obtain isCompleted | ⟨isAuto, fallback⟩ := outcome_exitCode exits
  · rw [isCompleted] at ended
    have received :=
      follows.attended.received (follows.reported .completed ended)
    exact absurd (congrArg RecvSide.receipts spared.side) received
  · exact ⟨isAuto, exitCode_eq_zero.mp fallback⟩

end Outcomes

/-! ## A transfer that is refused -/

def refusedConfig : FileCliConfig where
  client := .direct
  path := "a"
  checksum := false
  resume := false

/-- The finished file `in/a`. -/
def occupiedFiles : Files :=
  FileStore.put (fun _ => none) (components "in/a") [9]

/-- The file `a` is offered and refused. -/
def refusedTransfer : List TransferLabel :=
  [.event none, .answer, .command .none, .link (.rightControl .none),
    .answer, .answer, .deliver .none, .link (.leftControl .none),
    .event none, .event none]

theorem refused_transfer_run :
    ∃ transfer,
      Run transferStep anyStep
          (.start refusedConfig plainReceiver twoSources occupiedFiles)
          refusedTransfer transfer ∧
        transfer.cli.outcome = some (.reported .rejectedUnwanted) := by
  have ran :
      (replay transferStep
          (.start refusedConfig plainReceiver twoSources occupiedFiles)
          refusedTransfer).map
          (fun transfer => transfer.cli.outcome) =
        some (some (.reported .rejectedUnwanted)) := by
    decide +kernel
  obtain ⟨transfer, reached, ended⟩ := Option.map_eq_some_iff.mp ran
  exact ⟨transfer, run_of_replay reached, ended⟩

theorem refused_file_transfer_spares_occupied :
    ∃ transfer : FileTransfer,
      transfer.cli.outcome = some (.reported .rejectedUnwanted) ∧
        transfer.worker.peer.files = occupiedFiles ∧
          transfer.worker.peer.touched = [] ∧
            transfer.worker.approved = [] := by
  obtain ⟨transfer, run, ended⟩ := refused_transfer_run
  exact ⟨transfer, ended, refused_file_transfer_spares run ended rfl⟩

theorem existing_destination_kept_occupied :
    ∃ transfer : FileTransfer,
      transfer.cli.outcome = some (.reported .rejectedUnwanted) ∧
        transfer.worker.peer.files = occupiedFiles ∧
          transfer.worker.peer.touched = [] ∧
            ∀ outcome, transfer.cli.outcome = some outcome →
              ∀ table request session,
                outcome.exitCode .direct table
                    (fallbackExitCode (runSshFallback request session)) = 0 →
                  FileClient.direct = .bootstrapped .auto ∧
                    session.Transfers request := by
  obtain ⟨transfer, run, ended⟩ := refused_transfer_run
  refine ⟨transfer, ended, existing_destination_kept rfl rfl rfl ?_ run⟩
  intro safeName isName
  have isSafe : safeName = "a" := by
    have named : fileName (components (offeredName "a")) = some "a" := by
      decide +kernel
    exact Option.some.inj (isName.symm.trans named)
  rw [isSafe]
  decide +kernel

end Quiczilla
