import Quiczilla.ExchangeEffort

/-!
# A lively exchange

As long as both loops run and the sender can read and send its file, each part
that has begun something can bring it to its end, or the outcome is settled.
The receiver may refuse the offer, and any of its calls may fail.
-/

namespace Quiczilla

open Foundation

/-! ## Steps -/

/-- A call of the send task fails. -/
def SendLabel.fails : SendLabel → Bool
  | .openSource .failed => true
  | .openSource .seekFailed => true
  | .readFails => true
  | .writeStops _ => true
  | _ => false

/-- A loop ends, or the sender cannot read or send its file. -/
def LinkLabel.disturbs : LinkLabel → Bool
  | .leftCommand command _ => command = .disconnect
  | .rightCommand command _ => command = .disconnect
  | .leftEnds _ => true
  | .rightEnds _ => true
  | .leftSend label => label.fails
  | _ => false

/-- Both loops run, and nothing keeps the sender from reading and sending. -/
def Exchange.Undisturbed
    (exchange : Exchange) (link : Link) (label : LinkLabel) : Prop :=
  exchange.Admits link label ∧ label.disturbs = false

/-! ## Lists that have grown -/

theorem mem_of_grown
    {Item : Type} {before after : List Item} {last : Item}
    (grown : after = before ++ [last]) : last ∈ after := by
  rw [grown]
  exact List.mem_append_right before (List.mem_singleton_self last)

theorem ne_nil_of_grown
    {Item : Type} {before after : List Item} {last : Item}
    (grown : after = before ++ [last]) : after ≠ [] :=
  List.ne_nil_of_mem (mem_of_grown grown)

/-! ## The outcome -/

/-- The sender has been told an outcome, or a message on its way tells it. -/
def Link.Decided (link : Link) : Prop :=
  link.left.reports ≠ [] ∨
    ∃ message ∈ link.right.finals, message.report? ≠ none

theorem finals_of_outbox
    {peer : Peer} {letter : Letter} {rest : List Letter}
    (outbox : peer.outbox = letter :: rest) :
    peer.finals =
      [letter.message].filter ControlMessage.isFinal ++
        (peer.withOutbox rest).finals := by
  rw [Peer.finals, outbox, List.map_cons]
  exact List.filter_append [letter.message] (rest.map Letter.message)

/-- The loop takes back neither a report nor a message. -/
theorem loopStep_finals
    {peer next : Peer} {label : PeerLabel} (isLoop : label.isLoop = true)
    (stepped : peerStep peer label = some next) :
    (peer.reports ≠ [] → next.reports ≠ []) ∧
      ∀ message ∈ peer.finals, message ∈ next.finals := by
  obtain ⟨side, -, -⟩ := loopStep_finalSide isLoop stepped
  have reports : next.reports = (peer.finalSide.after label).reports :=
    congrArg FinalSide.reports side
  have finals : next.finals = (peer.finalSide.after label).finals :=
    congrArg FinalSide.finals side
  rw [reports, finals]
  cases label with
  | control letter faults =>
      exact
        ⟨fun told => List.append_ne_nil_of_left_ne_nil told _,
          fun message member => member⟩
  | command command faults =>
      cases command with
      | rejectFile =>
          exact
            ⟨fun told => told,
              fun message member => List.mem_append_left _ member⟩
      | _ => exact ⟨fun told => told, fun message member => member⟩
  | _ => exact ⟨fun told => told, fun message member => member⟩

theorem recvStep_finals
    {peer next : Peer} {label : RecvLabel}
    (stepped : peer.recvStep label = some next) :
    ∀ message ∈ peer.finals, message ∈ next.finals := by
  have tells {side : FinalSide} {message : ControlMessage}
      {status : FileTransferStatus} {hashes : List String}
      (isNext :
        side =
          (({ peer.finalSide with hashQueue := hashes }).tell
            message).report status) :
      ∀ other ∈ peer.finals, other ∈ side.finals := by
    rw [isNext]
    exact fun other member => List.mem_append_left _ member
  cases recvStep_verdict stepped with
  | silent _ _ isNext =>
      have same : next.finals = peer.finals :=
        congrArg FinalSide.finals isNext
      rw [same]
      exact fun message member => member
  | judged comparison rest message _ _ _ _ _ isNext => exact tells isNext
  | uncommitted comparison rest _ _ _ _ _ isNext => exact tells isNext
  | gaveUp _ _ _ isNext =>
      exact @tells _ _ _ peer.hashQueue isNext

namespace Link.Decided

variable {link next : Link} {label : LinkLabel}

/-- A report that the sender has not heard of arrives. -/
theorem of_arrived
    {letter : Letter} {rest : List Letter} {faults : Faults} {left : Peer}
    (decided : link.Decided) (arrived : link.right.outbox = letter :: rest)
    (taken : peerStep link.left (.control letter faults) = some left) :
    Link.Decided ⟨left, link.right.withOutbox rest⟩ := by
  have reports := control_reports taken
  obtain told | ⟨message, member, reports?⟩ := decided
  · refine Or.inl ?_
    change left.reports ≠ []
    rw [reports]
    exact List.append_ne_nil_of_left_ne_nil told _
  · rw [finals_of_outbox arrived] at member
    obtain now | later := List.mem_append.mp member
    · refine Or.inl ?_
      have isMessage :=
        List.mem_singleton.mp (List.mem_of_mem_filter now)
      obtain ⟨status, isStatus⟩ := Option.ne_none_iff_exists'.mp reports?
      rw [← isMessage, isStatus] at reports
      exact ne_nil_of_grown reports
    · exact Or.inr ⟨message, later, reports?⟩

/-- What has been settled stays settled. -/
theorem step
    (decided : link.Decided) (informed : link.Informed)
    (stepped : linkStep link label = some next) : next.Decided := by
  have rights {left right : Peer}
      (reports : left.reports = link.left.reports)
      (finals :
        ∀ message ∈ link.right.finals, message ∈ right.finals) :
      Link.Decided ⟨left, right⟩ := by
    obtain told | ⟨message, member, reports?⟩ := decided
    · refine Or.inl ?_
      change left.reports ≠ []
      rw [reports]
      exact told
    · exact Or.inr ⟨message, finals message member, reports?⟩
  cases linkStep_effect stepped with
  | leftCommand command faults left isSend taken =>
      exact decided.imp_left (loopStep_finals rfl taken).1
  | leftControl faults letter rest left arrived taken =>
      exact decided.of_arrived arrived taken
  | leftEnds reason left taken =>
      exact decided.imp_left (loopStep_finals rfl taken).1
  | leftSend label left taken =>
      refine decided.imp_left fun told => ?_
      change left.reports ≠ []
      rw [sendStep_reports informed.inline taken]
      exact told
  | rightCommand command faults right receives taken =>
      exact rights rfl (loopStep_finals rfl taken).2
  | rightControl faults letter rest right arrived taken =>
      exact rights rfl (loopStep_finals rfl taken).2
  | rightEnds reason right taken =>
      exact rights rfl (loopStep_finals rfl taken).2
  | received chunk rest right isFront taken =>
      exact rights rfl (recvStep_finals taken)
  | rightRecv label right notReceive taken =>
      exact rights rfl (recvStep_finals taken)

end Link.Decided

/-! ## What the steps leave as it is -/

theorem open_unnegotiated :
    Unnegotiated fun peer : Peer => (peer.mainEnded, peer.cancelled) where
  coordinator _ _ := rfl
  triggerSend _ _ := rfl
  triggerRecv _ _ := rfl
  touch _ _ _ := rfl
  send _ _ _ _ := rfl
  emit _ _ _ := rfl

/-- Only the report of a failure cancels a peer. -/
theorem control_open
    {peer next : Peer} {letter : Letter} {faults : Faults}
    (taken : peerStep peer (.control letter faults) = some next) :
    next.mainEnded = peer.mainEnded ∧
      (letter.message.report? = none →
        next.cancelled = peer.cancelled) := by
  rw [peerStep_control taken]
  by_cases negotiates : letter.message.negotiates = true
  · have same := open_unnegotiated.dispatch peer negotiates faults
    exact ⟨congrArg Prod.fst same, fun _ => congrArg Prod.snd same⟩
  · obtain ⟨message, offer⟩ := letter
    cases message with
    | receivedFileFailed => exact ⟨rfl, by rintro ⟨⟩⟩
    | _ =>
        first
        | exact ⟨rfl, fun _ => rfl⟩
        | exact absurd rfl negotiates

theorem command_open
    {peer next : Peer} {command : PeerCommand} {faults : Faults}
    (stays : command ≠ .disconnect)
    (taken : peerStep peer (.command command faults) = some next) :
    next.mainEnded = peer.mainEnded ∧
      next.cancelled = peer.cancelled := by
  rw [peerStep_command taken]
  by_cases negotiates : command.negotiates = true
  · have same := open_unnegotiated.handleCommand peer negotiates faults
    exact ⟨congrArg Prod.fst same, congrArg Prod.snd same⟩
  · cases command with
    | disconnect => exact absurd rfl stays
    | _ =>
        first
        | exact ⟨rfl, rfl⟩
        | exact absurd rfl negotiates

/-- The disk reader of the send has not failed. -/
def Peer.ReadsOn (peer : Peer) : Prop :=
  ∀ stream, peer.sender = .streaming stream → stream.reader ≠ .failed

/-- A send that nothing stops goes on until its hash is told. -/
theorem sendStep_goesOn
    {peer next : Peer} {label : SendLabel}
    (reads : peer.ReadsOn) (isOpen : peer.cancelled = false)
    (works : label.fails = false)
    (stepped : peer.sendStep label = some next) :
    next.ReadsOn ∧ next.unsent = peer.unsent ∧
      (next.sender ≠ .idle ∨ next.finals ≠ []) := by
  have streams {stream : SendStream} {other : Peer}
      (unsent : other.unsent = peer.unsent)
      (reader : stream.reader ≠ .failed) :
      (other.withStream stream).ReadsOn ∧
        (other.withStream stream).unsent = peer.unsent ∧
          ((other.withStream stream).sender ≠ .idle ∨
            (other.withStream stream).finals ≠ []) := by
    refine ⟨?_, unsent, Or.inl (by rintro ⟨⟩)⟩
    intro after isStreaming
    cases isStreaming
    exact reader
  unfold Peer.sendStep at stepped
  split at stepped
  case h_1 isIdle =>
    split at stepped <;> cases stepped
    exact ⟨by rintro _ ⟨⟩, rfl, Or.inl (by rintro ⟨⟩)⟩
  case h_2 job outcome isOpening =>
    cases outcome with
    | opened metadataFails =>
        cases measured : peer.files.length? (components job.path) with
        | none =>
            simp only [Peer.openSource, measured] at stepped
            cases stepped
        | some length =>
            simp only [Peer.openSource, measured] at stepped
            cases stepped
            exact streams rfl (by rintro ⟨⟩)
    | _ => cases works
  case h_3 stream length isStreaming =>
    simp only [Peer.readChunk] at stepped
    split at stepped <;> cases stepped
    exact streams rfl (reads stream isStreaming)
  case h_4 stream isStreaming =>
    simp only [Peer.readEnd] at stepped
    split at stepped
    · split at stepped <;> cases stepped
      exact streams rfl (by rintro ⟨⟩)
    · cases stepped
  case h_5 => cases works
  case h_6 stream isStreaming =>
    split at stepped <;> cases stepped
    exact streams rfl (reads stream isStreaming)
  case h_7 stream isStreaming =>
    simp only [Peer.writeChunk, isOpen] at stepped
    split at stepped
    · split at stepped <;> cases stepped
      exact streams rfl (reads stream isStreaming)
    · cases stepped
  case h_8 => cases works
  case h_9 stream isStreaming =>
    cases stepped
    refine ⟨reads, rfl, Or.inl ?_⟩
    change peer.sender ≠ .idle
    rw [isStreaming]
    rintro ⟨⟩
  case h_10 stream rehashFails isStreaming =>
    simp only [Peer.finishSending] at stepped
    split at stepped
    · split at stepped
      · cases stepped
      · rename_i failed
        exact absurd failed (reads stream isStreaming)
      · cases stepped
        refine ⟨by rintro _ ⟨⟩, rfl, Or.inr ?_⟩
        simp [Peer.finals, Peer.send, Peer.emit, ControlMessage.isFinal,
          ControlMessage.hash?]
    · cases stepped
  case h_11 => cases stepped

theorem sendStep_open
    {peer next : Peer} {label : SendLabel}
    (stepped : peer.sendStep label = some next) :
    next.mainEnded = peer.mainEnded ∧ next.cancelled = peer.cancelled := by
  cases sendStep_effect stepped <;> exact ⟨rfl, rfl⟩

theorem recvStep_open
    {peer next : Peer} {label : RecvLabel}
    (stepped : peer.recvStep label = some next) :
    next.mainEnded = peer.mainEnded := by
  cases recvStep_effect stepped <;> rfl

theorem failReceive_tells (peer : Peer) (status : FileTransferStatus) :
    ∃ message ∈ (peer.failReceive status).finals,
      message.report? ≠ none := by
  have finals :
      (peer.failReceive status).finals =
        peer.finals ++ [.receivedFileFailed] :=
    congrArg FinalSide.finals (failReceive_finalSide peer status)
  exact ⟨_, mem_of_grown finals, by rintro ⟨⟩⟩

theorem completeReceive_tells
    (peer : Peer) (verifying : Verifying) (hash : String) :
    ∃ message ∈ (peer.completeReceive verifying hash).finals,
      message.report? ≠ none := by
  have finals :
      (peer.completeReceive verifying hash).finals =
        peer.finals ++ [.receivedFileOk] :=
    congrArg FinalSide.finals
      (completeReceive_finalSide peer verifying hash)
  exact ⟨_, mem_of_grown finals, by rintro ⟨⟩⟩

theorem receiving_goesOn
    {peer next : Peer} {current : Receiving} {label : RecvLabel}
    (active : peer.receiver = .receiving current)
    (stepped : peer.recvStep label = some next) :
    (∃ message ∈ next.finals, message.report? ≠ none) ∨
      (next.receiver.job? ≠ none ∧ next.hashQueue = peer.hashQueue) := by
  unfold Peer.recvStep at stepped
  rw [active] at stepped
  cases label with
  | receive chunk =>
      simp only [Peer.receive] at stepped
      split at stepped <;> cases stepped
      exact Or.inr ⟨by rintro ⟨⟩, rfl⟩
  | receiveFails =>
      simp only [Peer.receiveFails] at stepped
      split at stepped <;> cases stepped
      exact Or.inr ⟨by rintro ⟨⟩, rfl⟩
  | endReceive =>
      simp only [Peer.endReceive] at stepped
      split at stepped <;> cases stepped
      exact Or.inr ⟨by rintro ⟨⟩, rfl⟩
  | writeChunk =>
      simp only [Peer.storeChunk] at stepped
      split at stepped <;> cases stepped
      exact Or.inr ⟨by rintro ⟨⟩, rfl⟩
  | writeFails length =>
      simp only [Peer.storeFails] at stepped
      split at stepped
      · split at stepped <;> cases stepped
        exact Or.inr ⟨by rintro ⟨⟩, rfl⟩
      · cases stepped
  | report =>
      cases stepped
      refine Or.inr ⟨?_, rfl⟩
      change peer.receiver.job? ≠ none
      rw [active]
      rintro ⟨⟩
  | closeFile flushFails rehashFails =>
      simp only [Peer.closeFile] at stepped
      split at stepped
      · cases stepped
      · split at stepped
        · cases stepped
          exact Or.inl (failReceive_tells _ _)
        · split at stepped
          · cases stepped
          · split at stepped <;> cases stepped
            · exact Or.inl (failReceive_tells _ _)
            · exact Or.inr ⟨by rintro ⟨⟩, rfl⟩
  | _ => cases stepped

/-- A receive goes on until its outcome is told. -/
theorem recvStep_goesOn
    {peer next : Peer} {label : RecvLabel}
    (isOpen : peer.mainEnded = false)
    (stepped : peer.recvStep label = some next) :
    (∃ message ∈ next.finals, message.report? ≠ none) ∨
      (next.receiver.job? ≠ none ∧ next.hashQueue = peer.hashQueue) := by
  cases phase : peer.receiver with
  | idle =>
      unfold Peer.recvStep at stepped
      rw [phase] at stepped
      cases label <;> simp only at stepped <;> try cases stepped
      split at stepped <;> cases stepped
      exact Or.inr ⟨by rintro ⟨⟩, rfl⟩
  | opening job =>
      unfold Peer.recvStep at stepped
      rw [phase] at stepped
      cases label <;> simp only at stepped <;> try cases stepped
      unfold Peer.openTarget at stepped
      split at stepped
      · cases stepped
        exact Or.inl (failReceive_tells _ _)
      · cases stepped
        exact Or.inl (failReceive_tells _ _)
      · split at stepped
        · obtain ⟨opened, -, rfl⟩ := Option.map_eq_some_iff.mp stepped
          exact Or.inl (failReceive_tells _ _)
        · cases stepped
      · obtain ⟨opened, -, rfl⟩ := Option.map_eq_some_iff.mp stepped
        exact Or.inr ⟨by rintro ⟨⟩, rfl⟩
      · cases stepped
  | receiving current => exact receiving_goesOn phase stepped
  | verifying verifying =>
      unfold Peer.recvStep at stepped
      rw [phase] at stepped
      cases label <;> simp only [isOpen] at stepped <;> try cases stepped
      · simp only [Peer.verify] at stepped
        split at stepped
        · split at stepped
          · split at stepped <;> cases stepped
            · exact Or.inl (completeReceive_tells _ _ _)
            · exact Or.inl (failReceive_tells _ _)
          · cases stepped
            exact Or.inl (failReceive_tells _ _)
        · cases stepped
  | stopped =>
      unfold Peer.recvStep at stepped
      rw [phase] at stepped
      cases label <;> cases stepped

/-! ## What is still under way -/

/-- The offer has been made and answered. -/
def Peer.Started (peer : Peer) : Prop :=
  peer.coordinator.announced ≠ [] ∧
    peer.coordinator.pendingSendPath = none

/-- The receive from byte zero is granted, or the send has started. -/
def Link.Granted (link : Link) : Prop :=
  link.left.Started ∨ ∃ number, .ready number ∈ link.right.answers

/-- Something speaks for the offer: its answer, its holder, or a message to
the receiver. -/
def Link.Speaks (link : Link) : Prop :=
  link.right.answers ≠ [] ∨ link.right.held ≠ none ∨
    ∃ notice ∈ link.left.notices, notice ≠ .resumeOk

/-- The receive that has been granted is queued, active or confirmed. -/
def Link.Takes (link : Link) : Prop :=
  link.right.recvQueue ≠ [] ∨ link.right.receiver.job? ≠ none ∨
    .resumeOk ∈ link.left.notices

/-- The send is queued or active, or its hash is under way. -/
def Link.Gives (link : Link) : Prop :=
  link.left.sendQueue ≠ [] ∨ link.left.sender ≠ .idle ∨
    link.left.finals ≠ [] ∨ link.right.hashQueue ≠ []

/-- Each part that has begun something can bring it to its end. -/
structure Link.Lively (link : Link) : Prop where
  isOpen : link.left.cancelled = false
  unsent : link.left.unsent = []
  reads : link.left.ReadsOn
  unstopped : link.right.receiver ≠ .stopped
  speaks :
    link.left.coordinator.pendingSendPath ≠ none → link.Speaks
  takes : link.Granted → link.Takes
  gives : link.left.Started → link.Gives

theorem lively_initial (leftFiles rightFiles : Files) :
    (Link.initial leftFiles rightFiles).Lively where
  isOpen := rfl
  unsent := rfl
  reads := by rintro _ ⟨⟩
  unstopped := by rintro ⟨⟩
  speaks isAsked := absurd rfl isAsked
  takes granted := by
    obtain started | ⟨number, isReady⟩ := granted
    · exact absurd rfl started.1
    · cases isReady
  gives started := absurd rfl started.1

namespace Link.Lively

variable {link : Link}

section LeftLoop

variable {label : PeerLabel} {left : Peer} {letters : List Letter}
  {answer : Option Answer} (lively : link.Lively)
  (isLoop : label.isLoop = true)
  (answers :
    link.right.answers =
      answer.toList ++ (link.right.withOutbox letters).answers)
  (isOpen : left.cancelled = false)
  (finals : left.finals = link.left.finals)
  (taken : peerStep link.left label = some left)

include lively

/-- The loop of the sender leaves the task and the receiver as they are. -/
theorem left_settled
    (isLoop : label.isLoop = true) (isOpen : left.cancelled = false)
    (taken : peerStep link.left label = some left)
    (speaks :
      left.coordinator.pendingSendPath ≠ none →
        Link.Speaks ⟨left, link.right.withOutbox letters⟩)
    (takes :
      Link.Granted ⟨left, link.right.withOutbox letters⟩ →
        Link.Takes ⟨left, link.right.withOutbox letters⟩)
    (gives :
      left.Started →
        Link.Gives ⟨left, link.right.withOutbox letters⟩) :
    Link.Lively ⟨left, link.right.withOutbox letters⟩ := by
  have tasks := loopStep_taskSide isLoop taken
  have sender : left.sender = link.left.sender :=
    congrArg TaskSide.sender tasks
  exact
    { isOpen := isOpen
      unsent := (congrArg TaskSide.unsent tasks).trans lively.unsent
      reads := fun stream isStreaming =>
        lively.reads stream (sender.symm.trans isStreaming)
      unstopped := lively.unstopped
      speaks := speaks
      takes := takes
      gives := gives }

/-- As long as no notice is taken, the receiver can still take what it
could. -/
theorem left_takes
    (granted : link.Granted)
    (notices : ∀ notice ∈ link.left.notices, notice ∈ left.notices) :
    Link.Takes ⟨left, link.right.withOutbox letters⟩ :=
  (lively.takes granted).imp_right (Or.imp_right (notices _))

omit lively in
include answers in
theorem left_readied
    (isReady :
      ∃ number, .ready number ∈ (link.right.withOutbox letters).answers) :
    link.Granted := by
  refine Or.inr (isReady.imp fun number member => ?_)
  rw [answers]
  exact List.mem_append_right _ member

include isLoop isOpen taken

include answers in
/-- A new notice speaks for the offer that waits. -/
theorem left_waiting
    {pending : PendingSend} {notice : Notice}
    (isAsked : left.coordinator.pendingSendPath = some pending)
    (notices : left.notices = link.left.notices ++ [notice])
    (speaks : notice ≠ .resumeOk) :
    Link.Lively ⟨left, link.right.withOutbox letters⟩ := by
  have unstarted : ¬left.Started := by
    intro started
    cases isAsked.symm.trans started.2
  refine
    lively.left_settled isLoop isOpen taken
      (fun _ => Or.inr (Or.inr ⟨notice, mem_of_grown notices, speaks⟩))
      (fun granted => ?_) (fun started => absurd started unstarted)
  obtain started | isReady := granted
  · exact absurd started unstarted
  · refine lively.left_takes (left_readied answers isReady) ?_
    rw [notices]
    exact fun _ member => List.mem_append_left _ member

/-- The pending offer starts its send. -/
theorem left_starts
    {job : SendJob} (noneAsked : left.coordinator.pendingSendPath = none)
    (queue : left.sendQueue = link.left.sendQueue ++ [job])
    (takes : Link.Takes ⟨left, link.right.withOutbox letters⟩) :
    Link.Lively ⟨left, link.right.withOutbox letters⟩ :=
  lively.left_settled isLoop isOpen taken
    (fun isAsked => absurd noneAsked isAsked) (fun _ => takes)
    (fun _ => Or.inl (ne_nil_of_grown queue))

include answers finals in
/-- Nothing of the offer changes, and an answer is taken only if none
waits. -/
theorem left_quiet
    (noAnswer :
      ∀ other, answer = some other →
        link.left.coordinator.pendingSendPath = none)
    (isNext : left.offering = link.left.offering) :
    Link.Lively ⟨left, link.right.withOutbox letters⟩ := by
  have sender : left.sender = link.left.sender :=
    congrArg TaskSide.sender (loopStep_taskSide isLoop taken)
  have announced :
      left.coordinator.announced = link.left.coordinator.announced :=
    congrArg Offering.announced isNext
  have pending :
      left.coordinator.pendingSendPath =
        link.left.coordinator.pendingSendPath :=
    congrArg Offering.pending isNext
  have notices : left.notices = link.left.notices :=
    congrArg Offering.notices isNext
  have queue : left.sendQueue = link.left.sendQueue :=
    congrArg Offering.sendQueue isNext
  have same (started : left.Started) : link.left.Started := by
    rw [Peer.Started, announced, pending] at started
    exact started
  refine
    lively.left_settled isLoop isOpen taken (fun isAsked => ?_)
      (fun granted => ?_) (fun started => ?_)
  · have noneTaken : answer = none := by
      cases isAnswer : answer with
      | none => rfl
      | some other =>
          exact absurd (pending.trans (noAnswer other isAnswer)) isAsked
    rw [noneTaken] at answers
    have before :=
      lively.speaks (fun none => isAsked (pending.trans none))
    rw [Link.Speaks, answers, ← notices] at before
    exact before
  · refine
      lively.left_takes
        (granted.elim (fun started => ?_) (left_readied answers)) ?_
    · exact Or.inl (same started)
    · rw [notices]
      exact fun _ member => member
  · have before := lively.gives (same started)
    rw [Link.Gives, ← sender, ← finals, ← queue] at before
    exact before

include answers finals in
/-- The loop of the sender goes on. -/
theorem leftLoop
    {faults : Faults} (bound : link.Bound)
    (last :
      ∀ other, answer = some other →
        other.number + 1 = link.left.coordinator.announced.length)
    (effect : OfferingEffect link.left answer faults left.offering) :
    Link.Lively ⟨left, link.right.withOutbox letters⟩ := by
  cases effect with
  | quiet noAnswer isNext =>
      exact
        lively.left_quiet isLoop answers isOpen finals taken noAnswer isNext
  | announced pending size noAnswer measured isNext =>
      exact
        lively.left_waiting isLoop answers isOpen taken
          (congrArg Offering.pending isNext)
          (congrArg Offering.notices isNext) (by rintro ⟨⟩)
  | started other pending isTaken waits fromZero isNext =>
      refine
        lively.left_starts isLoop isOpen taken
          (congrArg Offering.pending isNext)
          (congrArg Offering.sendQueue isNext) ?_
      have notices : left.notices = link.left.notices :=
        congrArg Offering.notices isNext
      rw [isTaken] at answers
      cases other with
      | ready number =>
          refine lively.left_takes (Or.inr ⟨number, ?_⟩) ?_
          · rw [answers]
            exact List.mem_cons_self
          · rw [notices]
            exact fun _ member => member
      | resumeReady number offset prefixHash =>
          -- An offer to resume keeps something.
          have isZero := fromZero number offset prefixHash rfl
          obtain ⟨isOnly, -⟩ := bound.alone answers (last _ isTaken)
          obtain ⟨job, isWaiting, -, isOffset⟩ := bound.waiting isOnly
          have positive := bound.resuming job isWaiting
          omega
  | confirmed number offset prefixHash pending isTaken waits positive same
      isNext =>
      have notices : left.notices = link.left.notices ++ [.resumeOk] :=
        congrArg Offering.notices isNext
      exact
        lively.left_starts isLoop isOpen taken
          (congrArg Offering.pending isNext)
          (congrArg Offering.sendQueue isNext)
          (Or.inr (Or.inr (mem_of_grown notices)))
  | refuted number offset prefixHash pending isTaken waits positive differs
      isNext =>
      exact
        lively.left_waiting isLoop answers isOpen taken
          (congrArg Offering.pending isNext)
          (congrArg Offering.notices isNext) (by rintro ⟨⟩)

end LeftLoop

section RightLoop

variable {label : PeerLabel} {right : Peer} {letters : List Letter}
  {notice : Option Notice} (lively : link.Lively)
  (isLoop : label.isLoop = true)
  (notices :
    link.left.notices =
      notice.toList ++ (link.left.withOutbox letters).notices)
  (keepsOffer :
    notice = none → link.right.held ≠ none →
      right.held ≠ none ∨ right.answers ≠ [])
  (hashes :
    link.left.finals ≠ [] →
      (link.left.withOutbox letters).finals ≠ [] ∨ right.hashQueue ≠ [])
  (queue : link.right.hashQueue ≠ [] → right.hashQueue ≠ [])
  (taken : peerStep link.right label = some right)

include lively isLoop taken

include hashes queue in
/-- The loop of the receiver leaves the task and the sender as they are. -/
theorem right_settled
    (speaks :
      link.left.coordinator.pendingSendPath ≠ none →
        Link.Speaks ⟨link.left.withOutbox letters, right⟩)
    (takes :
      Link.Granted ⟨link.left.withOutbox letters, right⟩ →
        Link.Takes ⟨link.left.withOutbox letters, right⟩) :
    Link.Lively ⟨link.left.withOutbox letters, right⟩ := by
  have receiver : right.receiver = link.right.receiver :=
    congrArg TaskSide.receiver (loopStep_taskSide isLoop taken)
  constructor
  case isOpen => exact lively.isOpen
  case unsent => exact lively.unsent
  case reads => exact lively.reads
  case unstopped =>
    change right.receiver ≠ .stopped
    rw [receiver]
    exact lively.unstopped
  case speaks => exact speaks
  case takes => exact takes
  case gives =>
    intro started
    obtain queued | active | told | waits := lively.gives started
    · exact Or.inl queued
    · exact Or.inr (Or.inl active)
    · exact Or.inr (Or.inr (hashes told))
    · exact Or.inr (Or.inr (Or.inr (queue waits)))

/-- As long as no answer is new and no confirmation is taken, the receiver can
still take what it could. -/
theorem right_takes
    (sameQueue : right.recvQueue = link.right.recvQueue)
    (readies :
      ∀ number, .ready number ∈ right.answers →
        .ready number ∈ link.right.answers)
    (confirmed :
      .resumeOk ∈ link.left.notices →
        .resumeOk ∈ (link.left.withOutbox letters).notices)
    (granted : Link.Granted ⟨link.left.withOutbox letters, right⟩) :
    Link.Takes ⟨link.left.withOutbox letters, right⟩ := by
  have receiver : right.receiver = link.right.receiver :=
    congrArg TaskSide.receiver (loopStep_taskSide isLoop taken)
  have before :=
    lively.takes (granted.imp_right (Exists.imp readies))
  rw [Link.Takes, ← sameQueue, ← receiver] at before
  exact before.imp_right (Or.imp_right confirmed)

omit lively isLoop taken in
include notices in
theorem right_offersOnly
    (isOffer : ∀ other ∈ notice, other ≠ .resumeOk) :
    .resumeOk ∈ link.left.notices →
      .resumeOk ∈ (link.left.withOutbox letters).notices := by
  intro member
  rw [notices] at member
  obtain now | later := List.mem_append.mp member
  · exact absurd rfl (isOffer _ (Option.mem_toList.mp now))
  · exact later

omit lively isLoop taken in
/-- What is granted is no confirmation. -/
theorem ne_resumeOk_of_grants
    {offer : HeldOffer} (grants : link.right.Grants notice offer) :
    ∀ other ∈ notice, other ≠ .resumeOk := by
  obtain isTaken | ⟨noneTaken, -⟩ := grants
  · rw [isTaken]
    intro other isOffer
    cases isOffer
    rintro ⟨⟩
  · rw [noneTaken]
    rintro _ ⟨⟩

include hashes queue in
/-- A step that takes no notice and gives no answer. -/
theorem right_quiet
    (same : (link.left.withOutbox letters).notices = link.left.notices)
    (sameAnswers : right.answers = link.right.answers)
    (sameQueue : right.recvQueue = link.right.recvQueue)
    (keepsOffer :
      link.right.held ≠ none → right.held ≠ none ∨ right.answers ≠ []) :
    Link.Lively ⟨link.left.withOutbox letters, right⟩ := by
  refine
    lively.right_settled isLoop hashes queue taken (fun isAsked => ?_)
      (lively.right_takes isLoop taken sameQueue ?_ ?_)
  · obtain isAnswered | isHeld | isTold := lively.speaks isAsked
    · refine Or.inl ?_
      change right.answers ≠ []
      rw [sameAnswers]
      exact isAnswered
    · obtain still | now := keepsOffer isHeld
      · exact Or.inr (Or.inl still)
      · exact Or.inl now
    · rw [← same] at isTold
      exact Or.inr (Or.inr isTold)
  · rw [sameAnswers]
    exact fun _ member => member
  · rw [same]
    exact fun member => member

include notices hashes queue in
/-- The confirmation is taken, and the receive that waited is queued. -/
theorem right_confirmed
    (isConfirmation : notice = some .resumeOk) {job : RecvJob}
    (sameHeld : right.held = link.right.held)
    (sameAnswers : right.answers = link.right.answers)
    (isQueue : right.recvQueue = link.right.recvQueue ++ [job]) :
    Link.Lively ⟨link.left.withOutbox letters, right⟩ := by
  refine
    lively.right_settled isLoop hashes queue taken (fun isAsked => ?_)
      (fun _ => Or.inl (ne_nil_of_grown isQueue))
  rw [isConfirmation] at notices
  obtain isAnswered | isHeld | ⟨other, member, differs⟩ :=
    lively.speaks isAsked
  · refine Or.inl ?_
    change right.answers ≠ []
    rw [sameAnswers]
    exact isAnswered
  · refine Or.inr (Or.inl ?_)
    change right.held ≠ none
    rw [sameHeld]
    exact isHeld
  · rw [notices] at member
    obtain now | later := List.mem_append.mp member
    · exact absurd (List.mem_singleton.mp now) differs
    · exact Or.inr (Or.inr ⟨other, later, differs⟩)

include notices keepsOffer hashes queue in
/-- The loop of the receiver goes on. -/
theorem rightLoop
    {faults : Faults} (bound : link.Bound)
    (effect : AnsweringEffect link.right notice faults right) :
    Link.Lively ⟨link.left.withOutbox letters, right⟩ := by
  have settled := @right_settled link label right letters lively isLoop hashes
    queue taken
  have takes := @right_takes link label right letters lively isLoop taken
  have answered {answer : Answer}
      (isAnswered : right.answers = link.right.answers ++ [answer]) :
      Link.Speaks ⟨link.left.withOutbox letters, right⟩ :=
    Or.inl (ne_nil_of_grown isAnswered)
  have unasked (noneTaken : notice = none) :
      (link.left.withOutbox letters).notices = link.left.notices := by
    rw [notices, noneTaken]
    rfl
  cases effect with
  | quiet noNotice isNext =>
      have noneTaken : notice = none := by
        cases isNotice : notice with
        | none => rfl
        | some other =>
            obtain ⟨noOffer, noneWaits⟩ := noNotice other isNotice
            rw [isNotice] at notices
            exact absurd noOffer (bound.noReply noneWaits notices)
      obtain ⟨held, -, answers, queued, -⟩ := Answering.mk.inj isNext
      refine
        lively.right_quiet isLoop hashes queue taken (unasked noneTaken)
          answers queued fun isHeld => Or.inl ?_
      rw [held]
      exact isHeld
  | held offer isOffer isNext =>
      obtain ⟨held, -, answers, queued, -⟩ := Answering.mk.inj isNext
      refine settled (fun _ => Or.inr (Or.inl ?_)) (takes queued ?_ ?_)
      · change right.held ≠ none
        rw [held]
        rintro ⟨⟩
      · rw [answers]
        exact fun _ member => member
      · exact
          right_offersOnly notices
            (@ne_resumeOk_of_grants link notice offer (Or.inl isOffer))
  | accepted offer job grants isFor fromZero isNext =>
      obtain ⟨-, -, answers, queued, -⟩ := Answering.mk.inj isNext
      exact
        settled (fun _ => answered answers)
          (fun _ => Or.inl (ne_nil_of_grown queued))
  | resumed offer job grants isFor positive fits isNext =>
      obtain ⟨-, -, answers, queued, -⟩ := Answering.mk.inj isNext
      refine settled (fun _ => answered answers) (takes queued ?_ ?_)
      · intro number member
        rw [answers] at member
        obtain before | now := List.mem_append.mp member
        · exact before
        · cases List.mem_singleton.mp now
      · exact right_offersOnly notices (ne_resumeOk_of_grants grants)
  | withdrawn noneTaken isNext =>
      obtain ⟨-, -, answers, queued, -⟩ := Answering.mk.inj isNext
      exact
        lively.right_quiet isLoop hashes queue taken (unasked noneTaken)
          answers queued (keepsOffer noneTaken)
  | confirmed job isConfirmation resuming isNext =>
      obtain ⟨held, -, answers, queued, -⟩ := Answering.mk.inj isNext
      exact
        lively.right_confirmed isLoop notices hashes queue taken
          isConfirmation held answers queued
  | restarted told job isRestart resuming isNext =>
      obtain ⟨-, -, answers, queued, -⟩ := Answering.mk.inj isNext
      exact
        settled (fun _ => answered answers)
          (fun _ => Or.inl (ne_nil_of_grown queued))

end RightLoop

/-- The send task goes on. -/
theorem sending
    {label : SendLabel} {left : Peer}
    (lively : link.Lively) (works : label.fails = false)
    (taken : link.left.sendStep label = some left) :
    Link.Lively ⟨left, link.right⟩ := by
  obtain ⟨reads, unsent, active⟩ :=
    sendStep_goesOn lively.reads lively.isOpen works taken
  have offering := sendStep_offering taken
  have announced :
      left.coordinator.announced = link.left.coordinator.announced :=
    congrArg Offering.announced offering
  have pending :
      left.coordinator.pendingSendPath =
        link.left.coordinator.pendingSendPath :=
    congrArg Offering.pending offering
  have notices : left.notices = link.left.notices :=
    congrArg Offering.notices offering
  constructor
  case isOpen => exact (sendStep_open taken).2.trans lively.isOpen
  case unsent => exact unsent.trans lively.unsent
  case reads => exact reads
  case unstopped => exact lively.unstopped
  case speaks =>
    intro isAsked
    have before := lively.speaks (fun none => isAsked (pending.trans none))
    rw [Link.Speaks, ← notices] at before
    exact before
  case takes =>
    intro granted
    rw [Link.Granted, Peer.Started, announced, pending] at granted
    have before := lively.takes granted
    rw [Link.Takes, ← notices] at before
    exact before
  case gives =>
    intro _
    obtain busy | told := active
    · exact Or.inr (Or.inl busy)
    · exact Or.inr (Or.inr (Or.inl told))

/-- The receive task goes on, or tells what has become of it. -/
theorem receiving
    {label : RecvLabel} {right : Peer} {bytes : List UInt8}
    (lively : link.Lively) (isOpen : link.right.mainEnded = false)
    (taken : link.right.recvStep label = some right) :
    Link.Decided ⟨link.left.withFileOut bytes, right⟩ ∨
      Link.Lively ⟨link.left.withFileOut bytes, right⟩ := by
  obtain told | ⟨active, queue⟩ := recvStep_goesOn isOpen taken
  · exact Or.inl (Or.inr told)
  refine Or.inr ?_
  have answering := recvStep_answering taken
  have held : right.held = link.right.held :=
    congrArg Answering.held answering
  have answers : right.answers = link.right.answers :=
    congrArg Answering.answers answering
  constructor
  case isOpen => exact lively.isOpen
  case unsent => exact lively.unsent
  case reads => exact lively.reads
  case unstopped =>
    intro stopped
    change right.receiver = .stopped at stopped
    rw [stopped] at active
    exact active rfl
  case speaks =>
    intro isAsked
    have before := lively.speaks isAsked
    rw [Link.Speaks, ← answers, ← held] at before
    exact before
  case takes => exact fun _ => Or.inr (Or.inl active)
  case gives =>
    intro started
    have before := lively.gives started
    rw [Link.Gives, ← queue] at before
    exact before

end Link.Lively

/-! ## Steps of the link -/

/-- Neither loop has ended. -/
def Link.IsOpen (link : Link) : Prop :=
  link.left.mainEnded = false ∧ link.right.mainEnded = false

theorem Link.IsOpen.step
    {link next : Link} {label : LinkLabel} (isOpen : link.IsOpen)
    (undisturbed : label.disturbs = false)
    (stepped : linkStep link label = some next) : next.IsOpen := by
  obtain ⟨leftOpen, rightOpen⟩ := isOpen
  cases linkStep_effect stepped with
  | leftCommand command faults left isSend taken =>
      have same := command_open (of_decide_eq_false undisturbed) taken
      exact ⟨same.1.trans leftOpen, rightOpen⟩
  | leftControl faults letter rest left arrived taken =>
      have same := control_open taken
      exact ⟨same.1.trans leftOpen, rightOpen⟩
  | leftEnds reason left taken => cases undisturbed
  | leftSend label left taken =>
      exact ⟨(sendStep_open taken).1.trans leftOpen, rightOpen⟩
  | rightCommand command faults right receives taken =>
      have same := command_open (of_decide_eq_false undisturbed) taken
      exact ⟨leftOpen, same.1.trans rightOpen⟩
  | rightControl faults letter rest right arrived taken =>
      have same := control_open taken
      exact ⟨leftOpen, same.1.trans rightOpen⟩
  | rightEnds reason right taken => cases undisturbed
  | received chunk rest right isFront taken =>
      exact ⟨leftOpen, (recvStep_open taken).trans rightOpen⟩
  | rightRecv label right notReceive taken =>
      exact ⟨leftOpen, (recvStep_open taken).trans rightOpen⟩

/-- A command that is no refusal drops no offer without an answer. -/
theorem handleCommand_keepsOffer
    {peer : Peer} {command : PeerCommand} (faults : Faults)
    (receives : command.receives = true)
    (accepts : command ≠ .rejectFile) (isHeld : peer.held ≠ none) :
    (peer.handleCommand command faults).held ≠ none ∨
      (peer.handleCommand command faults).answers ≠ [] := by
  cases command with
  | sendFile path checksum resume => cases receives
  | acceptFile saveDir checksum resume =>
      refine Or.inr ?_
      rw [Peer.handleCommand, Peer.handleAcceptFile]
      split
      · rename_i name size named sized
        cases handleAccept_answering peer.clearOffer
            ⟨⟨saveDir, checksum, resume⟩, name, size⟩ faults with
        | ready job isFor fromZero isNext =>
            exact ne_nil_of_grown (congrArg Answering.answers isNext)
        | resumeReady job isFor positive fits isNext =>
            exact ne_nil_of_grown (congrArg Answering.answers isNext)
      · rename_i notBoth
        refine absurd ?_ isHeld
        rw [Peer.held]
        split
        · rename_i name size named sized
          exact absurd sized (notBoth name size named)
        · rfl
  | rejectFile => exact absurd rfl accepts
  | _ => exact Or.inl isHeld

/-- A message that is no notice leaves the offer alone. -/
theorem handleControl_keepsOffer
    {peer : Peer} {letter : Letter} (faults : Faults)
    (noNotice : letter.notice? = none) :
    (peer.handleControl letter faults).held = peer.held := by
  obtain ⟨message, offer⟩ := letter
  change (peer.dispatch ⟨message, offer⟩ faults).held = peer.held
  cases message with
  | metadata name size resume checksum => cases noNotice
  | resumeOk => cases noNotice
  | restartFromZero => cases noNotice
  | ready =>
      simp only [Peer.dispatch, Peer.handleReady]
      split <;> rfl
  | resumeReady offset prefixHash =>
      simp only [Peer.dispatch, Peer.handleResumeReady]
      split
      · split
        · split <;> rfl
        · rfl
      · rfl
  | _ => rfl

/-- A message about the end that the receiver takes is a hash. -/
theorem Link.Informed.hashArrives
    {link : Link} (informed : link.Informed) {letter : Letter}
    {rest : List Letter} (arrived : link.left.outbox = letter :: rest)
    (told : link.left.finals ≠ []) :
    (link.left.withOutbox rest).finals ≠ [] ∨
      letter.message.hash?.toList ≠ [] := by
  obtain ⟨noReport, -, -⟩ := informed.arrives arrived
  rw [finals_of_outbox arrived] at told
  cases isHash : letter.message.hash? with
  | none =>
      refine Or.inl ?_
      have notFinal : letter.message.isFinal = false := by
        rw [ControlMessage.isFinal, noReport, isHash]
        rfl
      rw [List.filter_cons_of_neg (by rw [notFinal]; rintro ⟨⟩)] at told
      exact told
  | some hash => exact Or.inr (List.cons_ne_nil _ _)

/-- The outcome is settled, or everything can still be brought to its end. -/
theorem Link.Lively.step
    {exchange : Exchange} {leftFiles : Files} {link next : Link}
    {label : LinkLabel} (lively : link.Lively) (isOpen : link.IsOpen)
    (underway : exchange.Underway leftFiles link)
    (undisturbed : label.disturbs = false)
    (stepped : linkStep link label = some next) :
    next.Decided ∨ next.Lively := by
  have bound := underway.bound
  have inStep := underway.inStep stepped
  cases linkStep_effect stepped with
  | leftCommand command faults left isSend taken =>
      have cancelled : left.cancelled = false :=
        (command_open (of_decide_eq_false undisturbed) taken).2.trans
          lively.isOpen
      have finals : left.finals = link.left.finals := by
        have side := (loopStep_finalSide rfl taken).1
        rw [after_sends _ faults isSend] at side
        exact congrArg FinalSide.finals side
      have effect := commandStep_offering isSend taken
      exact
        Or.inr
          (@leftLoop _ _ _ link.right.outbox none lively rfl rfl cancelled
            finals taken _ bound (by rintro _ ⟨⟩) effect)
  | leftControl faults letter rest left arrived taken =>
      have side := (loopStep_finalSide rfl taken).1
      cases isReport : letter.message.report? with
      | some status =>
          refine Or.inl (Or.inl ?_)
          have reports :
              left.reports = link.left.reports ++ [status] := by
            have after := congrArg FinalSide.reports side
            rw [FinalSide.after, isReport] at after
            exact after
          exact ne_nil_of_grown reports
      | none =>
          have cancelled : left.cancelled = false :=
            ((control_open taken).2 isReport).trans lively.isOpen
          have effect := controlStep_offering bound.roles.sends taken
          refine
            Or.inr
              (lively.leftLoop rfl (answers_of_outbox arrived) cancelled
                (congrArg FinalSide.finals side) taken bound ?_ effect)
          intro answer isAnswer
          apply inStep.1 answer
          rw [arrived]
          exact isAnswer
  | leftEnds reason left taken => cases undisturbed
  | leftSend label left taken =>
      exact Or.inr (lively.sending undisturbed taken)
  | rightCommand command faults right receives taken =>
      have side := (loopStep_finalSide rfl taken).1
      by_cases refuses : command = .rejectFile
      · rw [refuses] at side
        have finals :
            right.finals = link.right.finals ++ [.rejectedUnwanted] :=
          congrArg FinalSide.finals side
        exact Or.inl (Or.inr ⟨_, mem_of_grown finals, by rintro ⟨⟩⟩)
      · have effect := commandStep_answering receives taken
        have queue : right.hashQueue = link.right.hashQueue := by
          have after := congrArg FinalSide.hashQueue side
          cases command <;> exact after
        refine
          Or.inr
            (@rightLoop _ _ _ link.left.outbox none lively rfl rfl
              (fun _ isHeld => ?_) Or.inl (fun waits => ?_) taken _ bound
              effect)
        · rw [peerStep_command taken]
          exact handleCommand_keepsOffer faults receives refuses isHeld
        · rw [queue]
          exact waits
  | rightControl faults letter rest right arrived taken =>
      have effect := controlStep_answering bound.roles.receives taken
      have queue :
          right.hashQueue =
            link.right.hashQueue ++ letter.message.hash?.toList :=
        congrArg FinalSide.hashQueue (loopStep_finalSide rfl taken).1
      refine
        Or.inr
          (lively.rightLoop rfl (notices_of_outbox arrived)
            (fun noNotice isHeld => ?_) (fun told => ?_)
            (fun waits => ?_) taken bound effect)
      · refine Or.inl ?_
        rw [peerStep_control taken,
          handleControl_keepsOffer faults noNotice]
        exact isHeld
      · rw [queue]
        exact
          (underway.informed.hashArrives arrived told).imp_right
            (List.append_ne_nil_of_right_ne_nil _)
      · rw [queue]
        exact List.append_ne_nil_of_left_ne_nil waits _
  | rightEnds reason right taken => cases undisturbed
  | received chunk rest right isFront taken =>
      exact lively.receiving isOpen.2 taken
  | rightRecv label right notReceive taken =>
      exact
        @receiving _ _ _ link.left.fileOut lively isOpen.2 taken

end Quiczilla
