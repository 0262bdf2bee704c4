import Quiczilla.CliArguments
import Quiczilla.ErrorClasses
import Quiczilla.FallbackVerification
import Quiczilla.UpheldExchange
import Quiczilla.WorkerLoop

/-!
# A file transfer

`run_file_transfer_cli` and `run_direct_cli` answer the events of the peer that
sends, and what ends their loop becomes the exit code.
`handle_incoming_connection` answers the events of the peer that receives.  A
transfer is the two event loops with the two peers, in any order of steps.
-/

namespace Quiczilla

open Foundation

/-! ## The sending application -/

/-- Whether a worker was started over SSH or a daemon is spoken to. -/
inductive FileClient where
  | bootstrapped (transport : TransportPreference)
  | direct
  deriving DecidableEq, Repr

structure FileCliConfig where
  client : FileClient
  path : String
  checksum : Bool
  resume : Bool
  deriving DecidableEq, Repr

/-- A key that is pressed: its character, if it has one, and whether control is
held. -/
structure KeyPress where
  character : Option Char
  control : Bool
  deriving DecidableEq, Repr

/-- What ends the event loop. -/
inductive FileOutcome where
  | reported (status : FileTransferStatus)
  | lost (reason : String)
  | interrupted
  | unstarted (error : String)
  | idle
  | closed
  deriving DecidableEq, Repr

/-- `{status:?}`. -/
def FileTransferStatus.debug : FileTransferStatus → String
  | .completed => "Completed"
  | .hashFailed => "HashFailed"
  | .rejectedAlreadyReceiving => "RejectedAlreadyReceiving"
  | .rejectedAlreadySending => "RejectedAlreadySending"
  | .rejectedUnwanted => "RejectedUnwanted"
  | .cancelled => "Cancelled"
  | .etc => "Etc"

def FileClient.reportPrefix : FileClient → String
  | .bootstrapped _ => "transfer failed: "
  | .direct => "direct transfer failed: "

def FileClient.lossPrefix : FileClient → String
  | .bootstrapped _ => ""
  | .direct => "direct connection failed: "

/-- `CliFailure::cancelled`. -/
def CliFailure.cancelled : CliFailure where
  code := 130
  message := "transfer cancelled by user"

/-- `failure` as the loop leaves it. -/
def FileOutcome.failure
    (client : FileClient) (table : Lowercase) :
    FileOutcome → Option CliFailure
  | .reported .completed => none
  | .reported .cancelled => some .cancelled
  | .reported status =>
      some ⟨status.exitCode, client.reportPrefix ++ status.debug⟩
  | .lost reason =>
      some ⟨classifyErrorMessage table reason, client.lossPrefix ++ reason⟩
  | .interrupted => some .cancelled
  | .unstarted error => some ⟨1, "could not start transfer: " ++ error⟩
  | .idle => some ⟨1, "direct daemon did not respond for 15 seconds"⟩
  | .closed => none

/-- `fallback_allowed`. -/
def FileOutcome.fallbackAllowed (client : FileClient) : FileOutcome → Bool
  | .lost _ => client == .bootstrapped .auto
  | _ => false

/-- The exit code behind the loop; `fallback` is that of the transfer over
SSH. -/
def FileOutcome.exitCode
    (client : FileClient) (table : Lowercase) (fallback : Nat)
    (outcome : FileOutcome) : Nat :=
  if outcome = .reported .completed then 0
  else if outcome.fallbackAllowed client then fallback
  else
    match outcome.failure client table with
    | some failure => failure.code
    | none => 1

/-- `seen` counts the events taken from `event_rx`; `commands` is the command
channel. -/
structure FileCli where
  config : FileCliConfig
  seen : Nat
  commands : List PeerCommand
  isPaused : Bool
  outcome : Option FileOutcome
  deriving DecidableEq, Repr

def FileCli.start (config : FileCliConfig) : FileCli where
  config := config
  seen := 0
  commands := []
  isPaused := false
  outcome := none

def FileCli.issue (cli : FileCli) (command : PeerCommand) : FileCli :=
  { cli with commands := cli.commands ++ [command] }

/-! ## The transfer -/

structure FileTransfer where
  cli : FileCli
  left : Peer
  worker : Worker

def FileTransfer.start
    (config : FileCliConfig) (receiver : WorkerConfig)
    (leftFiles rightFiles : Files) : FileTransfer where
  cli := .start config
  left := .initial leftFiles
  worker := .initial receiver rightFiles

def FileTransfer.link (transfer : FileTransfer) : Link where
  left := transfer.left
  right := transfer.worker.peer

def FileTransfer.withLink
    (transfer : FileTransfer) (link : Link) : FileTransfer :=
  { transfer with
    left := link.left
    worker := { transfer.worker with peer := link.right } }

/-- Leave the loop after `cancel.cancel()`. -/
def FileTransfer.finish
    (transfer : FileTransfer) (outcome : FileOutcome) : FileTransfer :=
  { transfer with
    cli := { transfer.cli with outcome := some outcome }
    left := { transfer.left with cancelled := true } }

def FileTransfer.issue
    (transfer : FileTransfer) (command : PeerCommand) : FileTransfer :=
  { transfer with cli := transfer.cli.issue command }

def FileTransfer.setPaused
    (transfer : FileTransfer) (isPaused : Bool) : FileTransfer :=
  { transfer with cli := { transfer.cli with isPaused := isPaused } }

/-- What the sending application does with an event.  `unsent` is the error if
the command channel is closed. -/
def FileTransfer.answer
    (transfer : FileTransfer) (event : PeerEvent)
    (unsent : Option String) : FileTransfer :=
  match event with
  | .connected =>
      match unsent with
      | none =>
          transfer.issue
            (.sendFile transfer.cli.config.path
              transfer.cli.config.checksum transfer.cli.config.resume)
      | some error => transfer.finish (.unstarted error)
  | .transferPaused => transfer.setPaused true
  | .transferResumed => transfer.setPaused false
  | .transferComplete status => transfer.finish (.reported status)
  | .disconnected reason => transfer.finish (.lost reason)
  | _ => transfer

/-- What the sending application does with a key. -/
def FileTransfer.press
    (transfer : FileTransfer) (key : KeyPress) : FileTransfer :=
  match key.character with
  | some character =>
      if character = ' ' ∨ character = 'p' ∨ character = 'P' then
        if transfer.cli.isPaused then transfer.issue .resume
        else transfer.issue .pause
      else if character = 'q' ∨ character = 'Q' then
        transfer.finish .interrupted
      else if character = 'c' ∧ key.control = true then
        transfer.finish .interrupted
      else transfer
  | none => transfer

def LinkLabel.isCommand : LinkLabel → Bool
  | .leftCommand _ _ => true
  | .rightCommand _ _ => true
  | _ => false

/-- `command` and `deliver` are the arrivals of a command at the loop of the
sending and of the receiving peer; `lost` is an error of the task that runs the
sending peer. -/
inductive TransferLabel where
  | link (label : LinkLabel)
  | command (faults : Faults)
  | event (unsent : Option String)
  | key (key : KeyPress)
  | interrupt
  | lost (reason : String)
  | idle
  | closed
  | deliver (faults : Faults)
  | answer
  deriving DecidableEq, Repr

/-- The loop of the sending application runs. -/
def FileTransfer.whileOpen
    (transfer : FileTransfer) (next : FileTransfer) : Option FileTransfer :=
  if transfer.cli.outcome = none then some next else none

def transferStep (transfer : FileTransfer) :
    TransferLabel → Option FileTransfer
  | .link label =>
      if label.isCommand then none
      else (linkStep transfer.link label).map transfer.withLink
  | .command faults =>
      match transfer.cli.commands with
      | command :: rest =>
          (linkStep transfer.link (.leftCommand command faults)).map
            fun link =>
              { transfer.withLink link with
                cli := { transfer.cli with commands := rest } }
      | [] => none
  | .event unsent =>
      match transfer.left.events[transfer.cli.seen]? with
      | some event =>
          transfer.whileOpen
            ({ transfer with
                cli :=
                  { transfer.cli with
                    seen := transfer.cli.seen + 1 } }.answer event unsent)
      | none => none
  | .key key =>
      if transfer.cli.config.client = .direct then none
      else transfer.whileOpen (transfer.press key)
  | .interrupt => transfer.whileOpen (transfer.finish .interrupted)
  | .lost reason => transfer.whileOpen (transfer.finish (.lost reason))
  | .idle =>
      if transfer.cli.config.client = .direct then
        transfer.whileOpen (transfer.finish .idle)
      else none
  | .closed =>
      if transfer.left.mainEnded ∧
          transfer.cli.seen = transfer.left.events.length then
        transfer.whileOpen
          { transfer with
            cli := { transfer.cli with outcome := some .closed } }
      else none
  | .deliver faults =>
      (workerStep transfer.worker (.deliver faults)).map fun worker =>
        { transfer with worker := worker }
  | .answer =>
      (workerStep transfer.worker .event).map fun worker =>
        { transfer with worker := worker }

/-! ## What a step does -/

/-- The loop takes the next event. -/
def FileTransfer.take (transfer : FileTransfer) : FileTransfer :=
  { transfer with
    cli := { transfer.cli with seen := transfer.cli.seen + 1 } }

/-- Everything that a step of the transfer can do. -/
inductive TransferEffect (transfer : FileTransfer) :
    TransferLabel → FileTransfer → Prop
  | linked (label : LinkLabel) (link : Link) :
      label.isCommand = false →
      linkStep transfer.link label = some link →
      TransferEffect transfer (.link label) (transfer.withLink link)
  | commanded (faults : Faults) (command : PeerCommand)
      (rest : List PeerCommand) (link : Link) :
      transfer.cli.commands = command :: rest →
      linkStep transfer.link (.leftCommand command faults) = some link →
      TransferEffect transfer (.command faults)
        { transfer.withLink link with
          cli := { transfer.cli with commands := rest } }
  | told (unsent : Option String) (event : PeerEvent)
      (next : FileTransfer) :
      transfer.left.events[transfer.cli.seen]? = some event →
      transfer.cli.outcome = none →
      next = transfer.take.answer event unsent →
      TransferEffect transfer (.event unsent) next
  | pressed (key : KeyPress) :
      transfer.cli.outcome = none →
      TransferEffect transfer (.key key) (transfer.press key)
  | left (label : TransferLabel) (outcome : FileOutcome) :
      (∀ status, outcome ≠ .reported status) →
      transfer.cli.outcome = none →
      TransferEffect transfer label (transfer.finish outcome)
  | closed :
      TransferEffect transfer .closed
        { transfer with
          cli := { transfer.cli with outcome := some .closed } }
  | delivered (faults : Faults) (command : PeerCommand)
      (rest : List PeerCommand) (right : Peer) :
      transfer.worker.commands = command :: rest →
      peerStep transfer.worker.peer (.command command faults) =
        some right →
      TransferEffect transfer (.deliver faults)
        { transfer with
          worker :=
            { transfer.worker with peer := right, commands := rest } }
  | answered (event : PeerEvent) :
      transfer.worker.peer.events[transfer.worker.seen]? = some event →
      TransferEffect transfer .answer
        { transfer with
          worker :=
            { transfer.worker with
              seen := transfer.worker.seen + 1 }.answer event }

theorem whileOpen_eq_some
    {transfer next final : FileTransfer}
    (isNext : transfer.whileOpen next = some final) :
    transfer.cli.outcome = none ∧ final = next := by
  unfold FileTransfer.whileOpen at isNext
  split at isNext <;> cases isNext
  exact ⟨‹_›, rfl⟩

theorem transferStep_effect
    {transfer next : FileTransfer} {label : TransferLabel}
    (stepped : transferStep transfer label = some next) :
    TransferEffect transfer label next := by
  cases label with
  | link label =>
      simp only [transferStep] at stepped
      split at stepped
      · cases stepped
      · rename_i notCommand
        obtain ⟨link, taken, rfl⟩ := Option.map_eq_some_iff.mp stepped
        exact
          TransferEffect.linked label link (by simpa using notCommand)
            taken
  | command faults =>
      simp only [transferStep] at stepped
      split at stepped
      · rename_i command rest queued
        obtain ⟨link, taken, rfl⟩ := Option.map_eq_some_iff.mp stepped
        exact TransferEffect.commanded faults command rest link queued taken
      · cases stepped
  | event unsent =>
      simp only [transferStep] at stepped
      split at stepped
      · rename_i event waiting
        obtain ⟨isOpen, isNext⟩ := whileOpen_eq_some stepped
        exact TransferEffect.told unsent event next waiting isOpen isNext
      · cases stepped
  | key key =>
      simp only [transferStep] at stepped
      split at stepped
      · cases stepped
      · obtain ⟨isOpen, rfl⟩ := whileOpen_eq_some stepped
        exact TransferEffect.pressed key isOpen
  | interrupt =>
      obtain ⟨isOpen, rfl⟩ := whileOpen_eq_some stepped
      exact TransferEffect.left _ .interrupted (by simp) isOpen
  | lost reason =>
      obtain ⟨isOpen, rfl⟩ := whileOpen_eq_some stepped
      exact TransferEffect.left _ (.lost reason) (by simp) isOpen
  | idle =>
      simp only [transferStep] at stepped
      split at stepped
      · obtain ⟨isOpen, rfl⟩ := whileOpen_eq_some stepped
        exact TransferEffect.left _ .idle (by simp) isOpen
      · cases stepped
  | closed =>
      simp only [transferStep] at stepped
      split at stepped
      · obtain ⟨-, rfl⟩ := whileOpen_eq_some stepped
        exact TransferEffect.closed
      · cases stepped
  | deliver faults =>
      obtain ⟨worker, taken, rfl⟩ := Option.map_eq_some_iff.mp stepped
      simp only [workerStep] at taken
      split at taken
      · rename_i command rest queued
        obtain ⟨right, isRight, rfl⟩ := Option.map_eq_some_iff.mp taken
        exact
          TransferEffect.delivered faults command rest right queued isRight
      · cases taken
  | answer =>
      obtain ⟨worker, taken, rfl⟩ := Option.map_eq_some_iff.mp stepped
      simp only [workerStep] at taken
      split at taken
      · split at taken <;> cases taken
        rename_i event waiting
        exact TransferEffect.answered event waiting
      · cases taken

end Quiczilla
