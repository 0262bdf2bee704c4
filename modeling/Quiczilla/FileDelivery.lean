import Quiczilla.FileTransfer

/-!
# What a file transfer delivers

The two event loops issue the commands of one exchange: one `SendFile`, behind
the one `Connected`, and accepts with the flags that both sides want.  So what
holds of an exchange holds of every transfer.
-/

namespace Quiczilla

open Foundation

/-- The exchange that the two applications ask for. -/
def FileCliConfig.exchange
    (config : FileCliConfig) (receiver : WorkerConfig) : Exchange where
  offer :=
    { path := config.path
      checksum := config.checksum
      resume := config.resume }
  accept :=
    { saveDir := receiver.saveDir
      checksum := receiver.verify || config.checksum
      resume := receiver.resume || config.resume }

def PeerCommand.isSend : PeerCommand → Bool
  | .sendFile _ _ _ => true
  | _ => false

/-! ## The events of the sending side -/

theorem EventsAdded.take
    {offered before after : List PeerEvent} {seen : Nat}
    (added : EventsAdded offered before after)
    (within : seen ≤ before.length) : after.take seen = before.take seen := by
  obtain ⟨new, isAfter, -, -⟩ := added
  rw [isAfter, List.take_append_of_le_length within]

/-- Without a command the sending side announces nothing. -/
theorem linkStep_left
    {link next : Link} {label : LinkLabel} (sends : link.left.OnlySends)
    (notCommand : label.isCommand = false)
    (stepped : linkStep link label = some next) :
    next.left.coordinator.announced = link.left.coordinator.announced ∧
      ∃ offered, EventsAdded offered link.left.events next.left.events := by
  have loops {peerLabel : PeerLabel} {left : Peer}
      (noCommand : ∀ command faults, peerLabel ≠ .command command faults)
      (isLoop : peerLabel.isLoop = true)
      (taken : peerStep link.left peerLabel = some left) :
      left.coordinator.announced = link.left.coordinator.announced := by
    obtain same | ⟨pending, faults, isCommand, -, -⟩ :=
      loopStep_announced sends
        (fun command faults isCommand =>
          absurd isCommand (noCommand command faults))
        isLoop taken
    · exact same
    · exact absurd isCommand (noCommand _ faults)
  have unchanged : EventsAdded [] link.left.events link.left.events :=
    eventsAdded_same rfl
  cases linkStep_effect stepped with
  | leftCommand command faults left isSend taken => cases notCommand
  | leftControl faults letter rest left arrived taken =>
      exact
        ⟨loops (fun _ _ isCommand => by cases isCommand) rfl taken, _,
          peerStep_events taken⟩
  | leftEnds reason left taken =>
      exact
        ⟨loops (fun _ _ isCommand => by cases isCommand) rfl taken, _,
          peerStep_events taken⟩
  | leftSend task left taken =>
      refine ⟨?_, [], sendStep_events taken⟩
      exact congrArg Coordinator.announced (sendStep_files taken).2
  | rightCommand command faults right receives taken => cases notCommand
  | rightControl faults letter rest right arrived taken =>
      exact ⟨rfl, [], unchanged⟩
  | received chunk rest right isFront taken => exact ⟨rfl, [], unchanged⟩
  | _ => exact ⟨rfl, [], unchanged⟩

/-- A command announces one offer at most. -/
theorem handleCommand_announced
    (peer : Peer) {command : PeerCommand} (faults : Faults)
    (isSend : command.sends = true) :
    (peer.handleCommand command faults).coordinator.announced.length ≤
      peer.coordinator.announced.length +
        if command.isSend then 1 else 0 := by
  cases command with
  | sendFile path checksum resume =>
      simp only [Peer.handleCommand, Peer.handleSendFile]
      split
      · exact Nat.le_succ _
      · split
        · simp [Peer.announce, Peer.send, Peer.emit, PeerCommand.isSend]
        · exact Nat.le_succ _
  | acceptFile saveDir checksum resume => cases isSend
  | rejectFile => cases isSend
  | _ => exact Nat.le_refl _

/-! ## The receiving application -/

/-- The receiving application refuses the offer or accepts a usable name. -/
theorem answerOffer_command
    {config : WorkerConfig} {files : Files} {name : String}
    {resume checksum : Bool} {command : PeerCommand}
    (answered :
      config.answerOffer files name resume checksum = .issued command) :
    command = .rejectFile ∨
      ∃ safeName, fileName (components name) = some safeName ∧
        command =
          .acceptFile config.saveDir (config.verify || checksum)
            (config.resume || resume) := by
  unfold WorkerConfig.answerOffer at answered
  split at answered
  · cases answered
  · rename_i safeName isName
    simp only at answered
    split at answered
    · cases answered
      exact Or.inl rfl
    · cases answered
      exact Or.inr ⟨safeName, isName, rfl⟩

/-- A command that the worker issues is an answer to the offer. -/
theorem answerOffer_accepts
    {config : FileCliConfig} {receiver : WorkerConfig} {name : String} {resume checksum : Bool} {command : PeerCommand}
    {files : Files}
    (tells : (config.exchange receiver).Tells name resume checksum)
    (answered :
      receiver.answerOffer files name resume checksum = .issued command) :
    command.receives = true ∧
      ∀ saveDir verify resumes,
        command = .acceptFile saveDir verify resumes →
          (config.exchange receiver).accept = ⟨saveDir, verify, resumes⟩ := by
  obtain refuses | ⟨safeName, -, isAccept⟩ := answerOffer_command answered
  · rw [refuses]
    exact ⟨rfl, by simp⟩
  · rw [isAccept]
    refine ⟨rfl, ?_⟩
    intro saveDir verify resumes isCommand
    cases isCommand
    rw [tells.resume, tells.checksum]
    rfl

/-- The worker goes on with the same peer or cancels it. -/
theorem answer_link
    (worker : Worker) (event : PeerEvent) :
    (worker.answer event).config = worker.config ∧
      ∃ cancelled,
        (worker.answer event).peer =
          { worker.peer with cancelled := cancelled } := by
  have same : worker.peer =
      { worker.peer with cancelled := worker.peer.cancelled } := rfl
  unfold Worker.answer
  split
  · split
    · exact ⟨rfl, _, same⟩
    · exact ⟨rfl, _, same⟩
  · exact ⟨rfl, true, rfl⟩
  · exact ⟨rfl, true, rfl⟩
  · exact ⟨rfl, _, same⟩

/-! ## Both applications -/

/-- The commands of both applications are those of the exchange, and a
`SendFile` stands for a `Connected` that has been taken. -/
structure FileTransfer.Follows
    (config : FileCliConfig) (receiver : WorkerConfig)
    (transfer : FileTransfer) : Prop where
  sender : transfer.cli.config = config
  worker : transfer.worker.config = receiver
  attended : (config.exchange receiver).Attended transfer.link
  greeted : transfer.left.events.count .connected ≤ 1
  taken : transfer.cli.seen ≤ transfer.left.events.length
  once :
    transfer.cli.commands.countP PeerCommand.isSend +
        transfer.left.coordinator.announced.length ≤
      (transfer.left.events.take transfer.cli.seen).count .connected
  offers :
    ∀ path checksum resume,
      .sendFile path checksum resume ∈ transfer.cli.commands →
        (config.exchange receiver).offer = ⟨path, checksum, resume⟩
  answers :
    ∀ command ∈ transfer.worker.commands, command.receives = true
  accepts :
    ∀ saveDir checksum resume,
      .acceptFile saveDir checksum resume ∈ transfer.worker.commands →
        (config.exchange receiver).accept = ⟨saveDir, checksum, resume⟩
  reported :
    ∀ status, transfer.cli.outcome = some (.reported status) →
      .transferComplete status ∈ transfer.left.events

namespace FileTransfer.Follows

variable {config : FileCliConfig} {receiver : WorkerConfig}
  {leftFiles rightFiles : Files} {transfer next : FileTransfer}

theorem start
    (config : FileCliConfig) (receiver : WorkerConfig)
    (leftFiles rightFiles : Files) :
    (FileTransfer.start config receiver leftFiles rightFiles).Follows config
      receiver where
  sender := rfl
  worker := rfl
  attended := Exchange.Attended.initial _ leftFiles rightFiles
  greeted := by
    change [PeerEvent.connected].count .connected ≤ 1
    decide
  taken := Nat.zero_le _
  once := Nat.le_refl 0
  offers _ _ _ member := by cases member
  answers _ member := by cases member
  accepts _ _ _ member := by cases member
  reported _ isOutcome := by cases isOutcome

/-- While the `SendFile` waits, nothing has been announced. -/
theorem unannounced
    (follows : transfer.Follows config receiver)
    {path : String} {checksum resume : Bool} {rest : List PeerCommand}
    (isFirst :
      transfer.cli.commands = .sendFile path checksum resume :: rest) :
    transfer.left.coordinator.announced = [] := by
  have once := follows.once
  have greeted := follows.greeted
  have fewer :
      (transfer.left.events.take transfer.cli.seen).count .connected ≤
        transfer.left.events.count .connected :=
    (List.take_sublist _ _).count_le _
  rw [isFirst, List.countP_cons_of_pos rfl] at once
  rw [← List.length_eq_zero_iff]
  omega

/-- The link moves on, and the applications do not. -/
theorem moved
    {offered : List PeerEvent} (follows : transfer.Follows config receiver)
    (cli : next.cli = transfer.cli)
    (worker : next.worker.config = transfer.worker.config)
    (fewer :
      ∀ command ∈ next.worker.commands,
        command ∈ transfer.worker.commands)
    (attended : (config.exchange receiver).Attended next.link)
    (announced :
      next.left.coordinator.announced =
        transfer.left.coordinator.announced)
    (added : EventsAdded offered transfer.left.events next.left.events) :
    next.Follows config receiver where
  sender := by
    rw [cli]
    exact follows.sender
  worker := worker.trans follows.worker
  attended := attended
  greeted := by
    rw [added.connections]
    exact follows.greeted
  taken := by
    rw [cli]
    exact follows.taken.trans added.prefix.length_le
  once := by
    rw [cli, announced, added.take follows.taken]
    exact follows.once
  offers := by
    rw [cli]
    exact follows.offers
  answers command member := follows.answers command (fewer command member)
  accepts saveDir checksum resume member :=
    follows.accepts saveDir checksum resume (fewer _ member)
  reported := by
    rw [cli]
    intro status isOutcome
    exact added.prefix.subset (follows.reported status isOutcome)

/-- A command arrives at the loop of the sending side. -/
theorem commanded
    {command : PeerCommand} {rest : List PeerCommand} {faults : Faults}
    {link : Link} (follows : transfer.Follows config receiver)
    (isFirst : transfer.cli.commands = command :: rest)
    (stepped :
      linkStep transfer.link (.leftCommand command faults) = some link) :
    FileTransfer.Follows config receiver
      { transfer.withLink link with
        cli := { transfer.cli with commands := rest } } := by
  have attended : (config.exchange receiver).Attended link := by
    refine follows.attended.step ?_ stepped
    intro path checksum resume others isCommand
    cases isCommand
    apply follows.offers path checksum resume
    rw [isFirst]
    exact List.mem_cons_self
  have once := follows.once
  rw [isFirst, List.countP_cons] at once
  cases linkStep_effect stepped with
  | leftCommand command faults left isSend taken =>
      have announced := handleCommand_announced transfer.left faults isSend
      have added : EventsAdded [] transfer.left.events left.events :=
        peerStep_events taken
      have isNext : left = transfer.left.handleCommand command faults :=
        peerStep_command taken
      rw [← isNext] at announced
      exact
        { sender := follows.sender
          worker := follows.worker
          attended := attended
          greeted := by
            change left.events.count .connected ≤ 1
            rw [added.connections]
            exact follows.greeted
          taken := follows.taken.trans added.prefix.length_le
          once := by
            change
              rest.countP PeerCommand.isSend +
                  left.coordinator.announced.length ≤
                (left.events.take transfer.cli.seen).count .connected
            rw [added.take follows.taken]
            omega
          offers := by
            intro path checksum resume member
            apply follows.offers path checksum resume
            rw [isFirst]
            exact List.mem_cons_of_mem _ member
          answers := follows.answers
          accepts := follows.accepts
          reported := fun status isOutcome =>
            added.prefix.subset (follows.reported status isOutcome) }

/-! ## Turns of the sending application -/

theorem withCancelled
    (follows : transfer.Follows config receiver) (left right : Bool) :
    FileTransfer.Follows config receiver
      (transfer.withLink (transfer.link.withCancelled left right)) :=
  follows.moved rfl rfl (fun _ member => member)
    (follows.attended.withCancelled left right) rfl (eventsAdded_same rfl)

theorem finish
    {outcome : FileOutcome} (follows : transfer.Follows config receiver)
    (reported :
      ∀ status, outcome = .reported status →
        .transferComplete status ∈ transfer.left.events) :
    (transfer.finish outcome).Follows config receiver := by
  have after :=
    follows.withCancelled true transfer.worker.peer.cancelled
  exact
    { sender := after.sender
      worker := after.worker
      attended := after.attended
      greeted := after.greeted
      taken := after.taken
      once := after.once
      offers := after.offers
      answers := after.answers
      accepts := after.accepts
      reported := fun status isOutcome =>
        reported status (Option.some.inj isOutcome) }

theorem take
    {event : PeerEvent} (follows : transfer.Follows config receiver)
    (isNext : transfer.left.events[transfer.cli.seen]? = some event) :
    transfer.take.Follows config receiver where
  sender := follows.sender
  worker := follows.worker
  attended := follows.attended
  greeted := follows.greeted
  taken := by
    obtain ⟨within, -⟩ := List.getElem?_eq_some_iff.mp isNext
    exact within
  once := by
    refine follows.once.trans ?_
    apply List.Sublist.count_le
    exact (List.take_prefix_take_left (Nat.le_succ _)).sublist
  offers := follows.offers
  answers := follows.answers
  accepts := follows.accepts
  reported := follows.reported

theorem setPaused
    (follows : transfer.Follows config receiver) (isPaused : Bool) :
    (transfer.setPaused isPaused).Follows config receiver where
  sender := follows.sender
  worker := follows.worker
  attended := follows.attended
  greeted := follows.greeted
  taken := follows.taken
  once := follows.once
  offers := follows.offers
  answers := follows.answers
  accepts := follows.accepts
  reported := follows.reported

theorem issue
    {command : PeerCommand} (follows : transfer.Follows config receiver)
    (room :
      (transfer.cli.commands.countP PeerCommand.isSend +
            transfer.left.coordinator.announced.length) +
          (if command.isSend then 1 else 0) ≤
        (transfer.left.events.take transfer.cli.seen).count .connected)
    (offer :
      ∀ path checksum resume, command = .sendFile path checksum resume →
        (config.exchange receiver).offer = ⟨path, checksum, resume⟩) :
    (transfer.issue command).Follows config receiver where
  sender := follows.sender
  worker := follows.worker
  attended := follows.attended
  greeted := follows.greeted
  taken := follows.taken
  once := by
    change
      (transfer.cli.commands ++ [command]).countP PeerCommand.isSend +
          transfer.left.coordinator.announced.length ≤
        (transfer.left.events.take transfer.cli.seen).count .connected
    rw [List.countP_append, List.countP_singleton]
    omega
  offers := by
    intro path checksum resume member
    obtain earlier | last := List.mem_append.mp member
    · exact follows.offers path checksum resume earlier
    · exact offer path checksum resume (List.mem_singleton.mp last).symm
  answers := follows.answers
  accepts := follows.accepts
  reported := follows.reported

/-- The one `Connected` is answered with the one `SendFile`. -/
theorem connected
    (follows : transfer.Follows config receiver)
    (isNext : transfer.left.events[transfer.cli.seen]? = some .connected) :
    (transfer.take.issue
      (.sendFile transfer.cli.config.path transfer.cli.config.checksum
        transfer.cli.config.resume)).Follows config receiver := by
  have once := follows.once
  have isOne :
      (transfer.left.events.take (transfer.cli.seen + 1)).count .connected =
        (transfer.left.events.take transfer.cli.seen).count .connected +
          1 := by
    rw [List.take_add_one, isNext, List.count_append]
    rfl
  refine (follows.take isNext).issue ?_ ?_
  · change
      transfer.cli.commands.countP PeerCommand.isSend +
            transfer.left.coordinator.announced.length + 1 ≤
        (transfer.left.events.take (transfer.cli.seen + 1)).count .connected
    omega
  · intro path checksum resume isCommand
    cases isCommand
    rw [follows.sender]
    rfl

theorem told
    {event : PeerEvent} {unsent : Option String}
    (follows : transfer.Follows config receiver)
    (isNext : transfer.left.events[transfer.cli.seen]? = some event) :
    (transfer.take.answer event unsent).Follows config receiver := by
  have taken := follows.take isNext
  cases event with
  | connected =>
      cases unsent with
      | none => exact follows.connected isNext
      | some error => exact taken.finish (by simp)
  | transferPaused => exact taken.setPaused true
  | transferResumed => exact taken.setPaused false
  | transferComplete status =>
      refine taken.finish ?_
      intro other isOther
      cases isOther
      exact List.mem_of_getElem? isNext
  | disconnected reason => exact taken.finish (by simp)
  | _ => exact taken

theorem pressed
    (follows : transfer.Follows config receiver) (key : KeyPress) :
    (transfer.press key).Follows config receiver := by
  have interrupted : (transfer.finish .interrupted).Follows config receiver :=
    follows.finish (by simp)
  have held (command : PeerCommand) (isOther : command.isSend = false)
      (noFile :
        ∀ path checksum resume, command ≠ .sendFile path checksum resume) :
      (transfer.issue command).Follows config receiver := by
    refine follows.issue ?_ ?_
    · rw [isOther]
      exact follows.once
    · intro path checksum resume isCommand
      exact absurd isCommand (noFile path checksum resume)
  unfold FileTransfer.press
  split
  · split
    · split
      · exact held .resume rfl (by simp)
      · exact held .pause rfl (by simp)
    · split
      · exact interrupted
      · split
        · exact interrupted
        · exact follows
  · exact follows

/-! ## Turns of the receiving application -/

theorem answered
    {event : PeerEvent} (follows : transfer.Follows config receiver)
    (isNext :
      transfer.worker.peer.events[transfer.worker.seen]? = some event) :
    FileTransfer.Follows config receiver
      { transfer with
        worker :=
          { transfer.worker with
            seen := transfer.worker.seen + 1 }.answer event } := by
  obtain ⟨sameConfig, cancelled, isPeer⟩ :=
    answer_link
      { transfer.worker with seen := transfer.worker.seen + 1 } event
  have after := follows.withCancelled transfer.left.cancelled cancelled
  have commands :
      ∀ command ∈
          ({ transfer.worker with
              seen := transfer.worker.seen + 1 }.answer event).commands,
        command.receives = true ∧
          ∀ saveDir checksum resume,
            command = .acceptFile saveDir checksum resume →
              (config.exchange receiver).accept =
                ⟨saveDir, checksum, resume⟩ := by
    have earlier (command : PeerCommand)
        (member : command ∈ transfer.worker.commands) :
        command.receives = true ∧
          ∀ saveDir checksum resume,
            command = .acceptFile saveDir checksum resume →
              (config.exchange receiver).accept =
                ⟨saveDir, checksum, resume⟩ := by
      refine ⟨follows.answers command member, ?_⟩
      intro saveDir checksum resume isCommand
      rw [isCommand] at member
      exact follows.accepts saveDir checksum resume member
    cases event with
    | fileOffered name size resume checksum =>
        have tells :=
          follows.attended.flagged.told name size resume checksum
            (List.mem_of_getElem? isNext)
        simp only [Worker.answer]
        split
        · exact earlier
        · rename_i issued isAnswer
          rw [follows.worker] at isAnswer
          intro command member
          obtain before | last := List.mem_append.mp member
          · exact earlier command before
          · rw [List.mem_singleton.mp last]
            exact answerOffer_accepts tells isAnswer
    | _ => exact earlier
  refine
    { sender := after.sender
      worker := sameConfig.trans follows.worker
      attended := ?_
      greeted := after.greeted
      taken := after.taken
      once := after.once
      offers := after.offers
      answers := fun command member => (commands command member).1
      accepts := fun saveDir checksum resume member =>
        (commands _ member).2 saveDir checksum resume rfl
      reported := after.reported }
  have attended := after.attended
  change (config.exchange receiver).Attended ⟨transfer.left, _⟩
  rw [isPeer]
  exact attended

/-! ## Steps -/

/-- A command arrives at the loop of the receiving side. -/
theorem rightCommand
    {command : PeerCommand} {rest : List PeerCommand} {faults : Faults}
    {right : Peer} (follows : transfer.Follows config receiver)
    (isFirst : transfer.worker.commands = command :: rest)
    (taken :
      peerStep transfer.worker.peer (.command command faults) =
        some right) :
    linkStep transfer.link (.rightCommand command faults) =
      some ⟨transfer.left, right⟩ := by
  have receives : command.receives = true := by
    apply follows.answers
    rw [isFirst]
    exact List.mem_cons_self
  have isRight :
      peerStep transfer.link.right (.command command faults) =
        some right := taken
  simp only [linkStep, if_pos receives, Link.moveRight, isRight]
  rfl

theorem step
    {label : TransferLabel} (follows : transfer.Follows config receiver)
    (stepped : transferStep transfer label = some next) :
    next.Follows config receiver := by
  cases transferStep_effect stepped with
  | linked label link notCommand taken =>
      obtain ⟨announced, offered, added⟩ :=
        linkStep_left follows.attended.sends notCommand taken
      refine
        follows.moved rfl rfl (fun _ member => member) ?_ announced added
      refine follows.attended.step ?_ taken
      intro path checksum resume faults isCommand
      rw [isCommand] at notCommand
      cases notCommand
  | commanded faults command rest link isFirst taken =>
      exact follows.commanded isFirst taken
  | told unsent event next isNext isOpen same =>
      rw [same]
      exact follows.told isNext
  | pressed key isOpen => exact follows.pressed key
  | left label outcome notReported isOpen =>
      exact
        follows.finish fun status isReported =>
          absurd isReported (notReported status)
  | closed =>
      exact
        { sender := follows.sender
          worker := follows.worker
          attended := follows.attended
          greeted := follows.greeted
          taken := follows.taken
          once := follows.once
          offers := follows.offers
          answers := follows.answers
          accepts := follows.accepts
          reported := fun _ isOutcome => by cases isOutcome }
  | delivered faults command rest right isFirst taken =>
      refine
        follows.moved rfl rfl ?_ ?_ rfl (eventsAdded_same rfl)
      · intro other member
        rw [isFirst]
        exact List.mem_cons_of_mem _ member
      · refine
          follows.attended.step ?_ (follows.rightCommand isFirst taken)
        intro path checksum resume others isCommand
        cases isCommand
  | answered event isNext => exact follows.answered isNext

end FileTransfer.Follows

/-! ## Delivery -/

/-- Every hash can be computed, and the receiving side can cut a staging file
back. -/
def TransferLabel.reliable : TransferLabel → Bool
  | .link (.rightControl faults) => !faults.truncate
  | .link label => label.hashes
  | .deliver faults => !faults.truncate
  | _ => true

def FileTransfer.Reliable
    (_ : FileTransfer) (label : TransferLabel) : Prop :=
  label.reliable = true

instance (transfer : FileTransfer) (label : TransferLabel) :
    Decidable (transfer.Reliable label) :=
  inferInstanceAs (Decidable (label.reliable = true))

section Delivering

variable {config : FileCliConfig} {receiver : WorkerConfig}
  {leftFiles rightFiles : Files} {source : List UInt8}
  {transfer next : FileTransfer} {labels : List TransferLabel}

/-- A step of the link without a command is a step of the exchange. -/
theorem verifies_of_reliable
    {exchange : Exchange} {link : Link} {label : LinkLabel}
    (notCommand : label.isCommand = false)
    (reliable : (TransferLabel.link label).reliable = true) :
    exchange.Verifies link label := by
  cases label with
  | leftCommand command faults => cases notCommand
  | rightCommand command faults => cases notCommand
  | rightControl faults =>
      have cuts : faults.truncate = false := by
        simpa [TransferLabel.reliable] using reliable
      exact ⟨cuts, rfl⟩
  | _ => exact ⟨trivial, reliable⟩

theorem upheld_answered
    {event : PeerEvent}
    (upheld :
      (config.exchange receiver).Upheld leftFiles rightFiles source
        transfer.link) :
    (config.exchange receiver).Upheld leftFiles rightFiles source
      ⟨transfer.left,
        ({ transfer.worker with
          seen := transfer.worker.seen + 1 }.answer event).peer⟩ := by
  obtain ⟨-, cancelled, isPeer⟩ :=
    answer_link
      { transfer.worker with seen := transfer.worker.seen + 1 } event
  rw [isPeer]
  exact upheld.withCancelled transfer.left.cancelled cancelled

theorem transferStep_upheld
    {label : TransferLabel} (follows : transfer.Follows config receiver)
    (upheld :
      (config.exchange receiver).Upheld leftFiles rightFiles source
        transfer.link)
    (isSource : leftFiles (components config.path) = some (.file source))
    (reliable : label.reliable = true)
    (stepped : transferStep transfer label = some next) :
    (config.exchange receiver).Upheld leftFiles rightFiles source
      next.link := by
  have cancelled :
      (config.exchange receiver).Upheld leftFiles rightFiles source
        ⟨{ transfer.left with cancelled := true }, transfer.worker.peer⟩ :=
    upheld.withCancelled true transfer.worker.peer.cancelled
  cases transferStep_effect stepped with
  | linked label link notCommand taken =>
      exact
        upheld.step isSource (verifies_of_reliable notCommand reliable) taken
  | commanded faults command rest link isFirst taken =>
      refine upheld.step isSource ⟨?_, rfl⟩ taken
      cases command with
      | sendFile path checksum resume =>
          refine ⟨?_, follows.unannounced isFirst⟩
          apply follows.offers path checksum resume
          rw [isFirst]
          exact List.mem_cons_self
      | _ => trivial
  | told unsent event next isNext isOpen same =>
      rw [same]
      cases event with
      | connected => cases unsent <;> first | exact upheld | exact cancelled
      | transferComplete status => exact cancelled
      | disconnected reason => exact cancelled
      | _ => exact upheld
  | pressed key isOpen =>
      unfold FileTransfer.press
      split
      · split
        · split <;> exact upheld
        · split
          · exact cancelled
          · split
            · exact cancelled
            · exact upheld
      · exact upheld
  | left label outcome notReported isOpen => exact cancelled
  | closed => exact upheld
  | delivered faults command rest right isFirst taken =>
      refine
        upheld.step isSource ⟨?_, rfl⟩ (follows.rightCommand isFirst taken)
      cases command with
      | acceptFile saveDir checksum resume =>
          refine ⟨?_, by simpa [TransferLabel.reliable] using reliable⟩
          apply follows.accepts saveDir checksum resume
          rw [isFirst]
          exact List.mem_cons_self
      | _ => trivial
  | answered event isNext => exact upheld_answered upheld

theorem upheld_of_run
    (isSource : leftFiles (components config.path) = some (.file source))
    (run :
      Run transferStep FileTransfer.Reliable
        (.start config receiver leftFiles rightFiles) labels transfer) :
    transfer.Follows config receiver ∧
      (config.exchange receiver).Upheld leftFiles rightFiles source
        transfer.link := by
  refine
    run.preserves
      (fun transfer =>
        transfer.Follows config receiver ∧
          (config.exchange receiver).Upheld leftFiles rightFiles source
            transfer.link)
      ?_
      ⟨FileTransfer.Follows.start config receiver leftFiles rightFiles,
        Exchange.Upheld.initial _ leftFiles rightFiles source⟩
  intro transfer label next holds reliable stepped
  exact
    ⟨holds.1.step stepped,
      transferStep_upheld holds.1 holds.2 isSource reliable stepped⟩

/-- The exit code is zero behind a completion, and behind a loss that the
fallback makes up for. -/
theorem outcome_exitCode
    {client : FileClient} {table : Lowercase} {fallback : Nat}
    {outcome : FileOutcome}
    (exits : outcome.exitCode client table fallback = 0) :
    outcome = .reported .completed ∨
      client = .bootstrapped .auto ∧ fallback = 0 := by
  by_cases completed : outcome = .reported .completed
  · exact Or.inl completed
  refine Or.inr ?_
  rw [FileOutcome.exitCode, if_neg completed] at exits
  cases outcome with
  | reported status =>
      cases status with
      | completed => exact absurd rfl completed
      | _ => cases exits
  | lost reason =>
      by_cases isAuto : client = .bootstrapped .auto
      · refine ⟨isAuto, ?_⟩
        rw [if_pos] at exits
        · exact exits
        · simp [FileOutcome.fallbackAllowed, isAuto]
      · rw [if_neg] at exits
        · exact absurd exits (classOf_ne_zero _)
        · simp [FileOutcome.fallbackAllowed, isAuto]
  | _ => cases exits

/-- If the CLI ends with exit code zero, the destination holds the source, up
to what was resumed, or everything was sent over SSH.  Without `--resume`, and
below the threshold, nothing is resumed. -/
theorem file_transfer_delivers
    (isSource : leftFiles (components config.path) = some (.file source))
    (run :
      Run transferStep FileTransfer.Reliable
        (.start config receiver leftFiles rightFiles) labels transfer)
    {outcome : FileOutcome} (ended : transfer.cli.outcome = some outcome)
    {table : Lowercase} {request : FallbackRequest}
    {session : FallbackSession}
    (exits :
      outcome.exitCode config.client table
        (fallbackExitCode (runSshFallback request session)) = 0) :
    (∃ content,
        transfer.worker.peer.files
              (destinationPath receiver.saveDir (offeredName config.path)) =
            some (.file content) ∧
          (source.length < resumeThresholdBytes ∨ config.resume = false →
            content = source) ∧
            (config.exchange receiver).Leaves
              (((config.exchange receiver).applied source.length).kept
                rightFiles)
              source content) ∨
      config.client = .bootstrapped .auto ∧ session.Transfers request := by
  obtain ⟨follows, upheld⟩ := upheld_of_run isSource run
  obtain isCompleted | ⟨isAuto, fallback⟩ := outcome_exitCode exits
  · have completed := follows.reported .completed (by rw [ended, isCompleted])
    obtain ⟨content, present, unresumed, leaves⟩ :=
      upheld.content isSource completed
    refine Or.inl ⟨content, present, ?_, leaves⟩
    rintro (small | noResume)
    · apply unresumed
      intro mayResume
      exact absurd mayResume.1 (Nat.not_le.mpr small)
    · apply unresumed
      intro mayResume
      have isResume : config.resume = true := mayResume.2
      rw [noResume] at isResume
      cases isResume
  · exact Or.inr ⟨isAuto, exitCode_eq_zero.mp fallback⟩

end Delivering

/-! ## A transfer that is paused -/

def pausedConfig : FileCliConfig where
  client := .bootstrapped .direct
  path := "a"
  checksum := true
  resume := true

def plainReceiver : WorkerConfig where
  saveDir := "in"
  verify := false
  resume := false
  conflictPolicy := .refuse

/-- The file `a` of one byte is offered and accepted while the user pauses and
resumes the transfer. -/
def pausedTransfer : List TransferLabel :=
  [.event none, .answer, .command .none, .link (.rightControl .none),
      .answer, .answer, .key ⟨some 'p', false⟩, .command .none,
      .event none, .event none, .key ⟨some ' ', false⟩, .command .none,
      .deliver .none, .link (.rightControl .none),
      .link (.rightControl .none), .link (.leftControl .none)] ++
    (sendAndReceive [1]).map TransferLabel.link ++
      [.link (.leftControl .none), .event none, .event none, .event none]

theorem file_transfer_delivers_one_byte :
    ∃ transfer : FileTransfer,
      transfer.cli.outcome = some (.reported .completed) ∧
        ∃ content,
          transfer.worker.peer.files
                (destinationPath "in" (offeredName "a")) =
              some (.file content) ∧
            ([1].length < resumeThresholdBytes ∨ true = false →
              content = [1]) ∧
              (pausedConfig.exchange plainReceiver).Leaves
                (((pausedConfig.exchange plainReceiver).applied
                  [1].length).kept fun _ => none)
                [1] content := by
  have ran :
      (guardedReplay transferStep FileTransfer.Reliable
          (.start pausedConfig plainReceiver twoSources fun _ => none)
          pausedTransfer).map
          (fun transfer => transfer.cli.outcome) =
        some (some (.reported .completed)) := by
    decide +kernel
  obtain ⟨transfer, reached, ended⟩ := Option.map_eq_some_iff.mp ran
  obtain delivered | ⟨isAuto, -⟩ :=
    @file_transfer_delivers pausedConfig plainReceiver twoSources
      (fun _ => none) [1] transfer _ (if_pos rfl)
      (run_of_guardedReplay reached) _ ended .least ⟨"in", "a", true, false⟩
      ⟨fun _ => false, false, none, [], none, fun _ => none⟩ rfl
  · exact ⟨transfer, ended, delivered⟩
  · cases isAuto

end Quiczilla
