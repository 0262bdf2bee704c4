import Quiczilla.Peer

/-!
# The worker's event loop

In file mode `handle_incoming_connection` runs a peer and answers its events:
an offer is accepted or, under `--on-conflict refuse`, rejected when the
destination exists.  The answer is a command, and `run_peer` takes it from the
command channel whenever its loop gets to it.
-/

namespace Quiczilla

open Foundation

inductive ConflictPolicy where
  | overwrite
  | refuse
  deriving DecidableEq, Repr

structure WorkerConfig where
  saveDir : String
  verify : Bool
  resume : Bool
  conflictPolicy : ConflictPolicy
  deriving DecidableEq, Repr

/-- The `FileOffered` branch ends the loop with an error or issues a
command. -/
inductive OfferAnswer where
  | failed (error : String)
  | issued (command : PeerCommand)
  deriving DecidableEq, Repr

def WorkerConfig.destination
    (config : WorkerConfig) (safeName : String) : UnixPath :=
  join (components config.saveDir) (components safeName)

def WorkerConfig.answerOffer
    (config : WorkerConfig) (files : Files) (name : String)
    (offeredResume offeredChecksum : Bool) : OfferAnswer :=
  match fileName (components name) with
  | none => .failed "offered file has no usable file name"
  | some safeName =>
      let resumeRequested := config.resume || offeredResume
      if config.conflictPolicy = .refuse ∧
          files.isPresent (config.destination safeName) = true ∧
          resumeRequested = false then
        .issued .rejectFile
      else
        .issued
          (.acceptFile config.saveDir (config.verify || offeredChecksum)
            resumeRequested)

/-- The worker with its peer.  `seen` counts the events taken from `event_rx`;
`commands` is the command channel.  `approved` is history: the destinations of
the offers that were answered with an accept. -/
structure Worker where
  config : WorkerConfig
  peer : Peer
  seen : Nat
  commands : List PeerCommand
  running : Bool
  approved : List UnixPath

def Worker.initial (config : WorkerConfig) (files : Files) : Worker where
  config := config
  peer := .initial files
  seen := 0
  commands := []
  running := true
  approved := []

/-- Leave the event loop after `cancel.cancel()`. -/
def Worker.shutDown (worker : Worker) : Worker :=
  { worker with
    peer := { worker.peer with cancelled := true }
    running := false }

def Worker.issue
    (worker : Worker) (name : String) (command : PeerCommand) : Worker :=
  { worker with
    commands := worker.commands ++ [command]
    approved :=
      match command with
      | .acceptFile _ _ _ =>
          worker.approved ++
            ((fileName (components name)).map
              worker.config.destination).toList
      | _ => worker.approved }

def Worker.answer (worker : Worker) (event : PeerEvent) : Worker :=
  match event with
  | .fileOffered name _ resume checksum =>
      match worker.config.answerOffer worker.peer.files name resume
          checksum with
      | .failed _ => { worker with running := false }
      | .issued command => worker.issue name command
  | .transferComplete _ => worker.shutDown
  | .disconnected _ => worker.shutDown
  | _ => worker

/-- A step of `run_peer` that is no command, the delivery of the next command
to it, or a turn of the event loop. -/
inductive WorkerLabel where
  | peer (label : PeerLabel)
  | deliver (faults : Faults)
  | event
  deriving DecidableEq, Repr

def workerStep (worker : Worker) : WorkerLabel → Option Worker
  | .peer label =>
      match label with
      | .command _ _ => none
      | other =>
          (peerStep worker.peer other).map fun peer =>
            { worker with peer := peer }
  | .deliver faults =>
      match worker.commands with
      | command :: rest =>
          (peerStep worker.peer (.command command faults)).map fun peer =>
            { worker with peer := peer, commands := rest }
      | [] => none
  | .event =>
      if worker.running then
        match worker.peer.events[worker.seen]? with
        | some event =>
            some ({ worker with seen := worker.seen + 1 }.answer event)
        | none => none
      else none

/-- Everything that a step of the worker can do. -/
inductive WorkerEffect (worker : Worker) : WorkerLabel → Worker → Prop
  | stepped (label : PeerLabel) (next : Peer) :
      (∀ command faults, label ≠ .command command faults) →
      peerStep worker.peer label = some next →
      WorkerEffect worker (.peer label) { worker with peer := next }
  | delivered (faults : Faults) (command : PeerCommand)
      (rest : List PeerCommand) (next : Peer) :
      worker.commands = command :: rest →
      peerStep worker.peer (.command command faults) = some next →
      WorkerEffect worker (.deliver faults)
        { worker with peer := next, commands := rest }
  | answered (event : PeerEvent) :
      event ∈ worker.peer.events →
      WorkerEffect worker .event
        ({ worker with seen := worker.seen + 1 }.answer event)

theorem workerStep_effect
    {worker next : Worker} {label : WorkerLabel}
    (stepped : workerStep worker label = some next) :
    WorkerEffect worker label next := by
  cases label with
  | peer label =>
      cases label with
      | command command faults => cases stepped
      | _ =>
          obtain ⟨peer, taken, rfl⟩ := Option.map_eq_some_iff.mp stepped
          exact WorkerEffect.stepped _ peer nofun taken
  | deliver faults =>
      simp only [workerStep] at stepped
      split at stepped
      · rename_i command rest queued
        obtain ⟨peer, taken, rfl⟩ := Option.map_eq_some_iff.mp stepped
        exact WorkerEffect.delivered faults command rest peer queued taken
      · cases stepped
  | event =>
      simp only [workerStep] at stepped
      split at stepped
      · split at stepped <;> cases stepped
        rename_i event waiting
        exact WorkerEffect.answered event (List.mem_of_getElem? waiting)
      · cases stepped

end Quiczilla
