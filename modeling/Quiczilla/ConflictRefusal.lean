import Quiczilla.OfferSlots
import Quiczilla.ReceiveJobs
import Quiczilla.WorkerLoop

/-!
# Refusing conflicts

Under `--on-conflict refuse` the worker rejects an offer whose destination
exists.  The check looks at the name in the event; the accept takes effect on
whatever offer the peer holds when the command arrives, under the trimmed name,
and a large offer is staged next to its destination.
-/

namespace Quiczilla

open Foundation

/-- The regular files that are there when the connection starts. -/
def IsOriginal (files : Files) (path : UnixPath) : Prop :=
  ∃ content, files path = some (.file content)

/-- No original file has been touched, and all are as they were. -/
def Peer.Protects (peer : Peer) (files : Files) : Prop :=
  ∀ path content, files path = some (.file content) →
    path ∉ peer.touched ∧ peer.files path = some (.file content)

def PeerLabel.asksResume : PeerLabel → Bool
  | .control ⟨.metadata _ _ resume _, _⟩ _ => resume
  | _ => false

/-- The step of the peer that a step of the worker takes. -/
def Worker.peerLabel (worker : Worker) : WorkerLabel → Option PeerLabel
  | .peer label => some label
  | .deliver faults =>
      worker.commands.head?.map fun command => .command command faults
  | .event => none

/-- Every `METADATA` asks for no resume. -/
def Worker.OffersAfresh (worker : Worker) (label : WorkerLabel) : Prop :=
  ∀ peerLabel ∈ worker.peerLabel label, peerLabel.asksResume = false

instance (worker : Worker) (label : WorkerLabel) :
    Decidable (worker.OffersAfresh label) :=
  inferInstanceAs
    (Decidable
      (∀ peerLabel ∈ worker.peerLabel label,
        peerLabel.asksResume = false))

/-- The policy check has found the path free, the connection has written it
itself, or there is no file now. -/
def Worker.Clears (worker : Worker) (path : UnixPath) : Prop :=
  path ∈ worker.approved ∨ path ∈ worker.peer.touched ∨
    worker.peer.files.content? path = none

instance (worker : Worker) (path : UnixPath) :
    Decidable (worker.Clears path) :=
  inferInstanceAs (Decidable (_ ∨ _ ∨ _))

/-- An accept that takes effect does so on an offer whose destination and,
from the staging threshold on, staging path are clear. -/
def Worker.AcceptsCleared (worker : Worker) (label : WorkerLabel) : Prop :=
  ∀ peerLabel ∈ worker.peerLabel label,
    ∀ applied ∈ worker.peer.applied peerLabel,
      worker.Clears applied.destPath ∧
        (resumeThresholdBytes ≤ applied.size →
          worker.Clears applied.partPath)

instance (worker : Worker) (label : WorkerLabel) :
    Decidable (worker.AcceptsCleared label) :=
  inferInstanceAs
    (Decidable
      (∀ peerLabel ∈ worker.peerLabel label,
        ∀ applied ∈ worker.peer.applied peerLabel, _ ∧ (_ → _)))

/-! ## What the policy check establishes -/

/-- Without resume the policy accepts only a name whose destination does not
exist. -/
theorem approved_destination_absent
    {config : WorkerConfig} {files : Files} {name safeName : String}
    {offeredChecksum : Bool} {command : PeerCommand}
    (refuses : config.conflictPolicy = .refuse)
    (noResume : config.resume = false)
    (named : fileName (components name) = some safeName)
    (answered :
      config.answerOffer files name false offeredChecksum =
        .issued command) :
    command = .rejectFile ∨
      (files (config.destination safeName) = none ∧
        command =
          .acceptFile config.saveDir (config.verify || offeredChecksum)
            false) := by
  rw [WorkerConfig.answerOffer, named, noResume] at answered
  simp only [Bool.or_false] at answered
  split at answered
  · rw [← OfferAnswer.issued.inj answered]
    exact Or.inl rfl
  · rename_i passes
    have absent : files (config.destination safeName) = none := by
      by_contra present
      have isPresent :
          files.isPresent (config.destination safeName) = true :=
        Option.isSome_iff_ne_none.mpr present
      exact passes ⟨refuses, isPresent, trivial⟩
    exact Or.inr ⟨absent, (OfferAnswer.issued.inj answered).symm⟩

/-! ## Where the events come from -/

/-- Every new `FileOffered` repeats the `METADATA` of the step. -/
def OffersAnnounced (label : PeerLabel) (before after : List PeerEvent) :
    Prop :=
  ∀ name size resume checksum,
    .fileOffered name size resume checksum ∈ after →
      .fileOffered name size resume checksum ∈ before ∨
        label.message = some (.metadata name size resume checksum)

theorem offersAnnounced_same
    {label : PeerLabel} {before after : List PeerEvent}
    (same : after = before) : OffersAnnounced label before after := by
  intro name size resume checksum member
  rw [same] at member
  exact Or.inl member

theorem offersAnnounced_append
    {label : PeerLabel} {before after : List PeerEvent}
    {event : PeerEvent}
    (announced : OffersAnnounced label before after)
    (other :
      ∀ name size resume checksum,
        event = .fileOffered name size resume checksum →
          label.message = some (.metadata name size resume checksum)) :
    OffersAnnounced label before (after ++ [event]) := by
  intro name size resume checksum member
  rcases List.mem_append.mp member with earlier | new
  · exact announced name size resume checksum earlier
  · exact Or.inr (other _ _ _ _ (List.mem_singleton.mp new).symm)

theorem truncateTo_events
    (peer : Peer) (path : UnixPath) (length : Nat) (faults : Faults) :
    (peer.truncateTo path length faults).events = peer.events := by
  unfold Peer.truncateTo
  split
  · rfl
  · split <;> rfl

theorem handleAccept_events
    (peer : Peer) (accept : PendingAccept) (name : String) (size : Nat)
    (faults : Faults) :
    (peer.handleAccept accept name size faults).events = peer.events := by
  have resumed :
      ∀ (staged : Peer) (path : UnixPath) (length : Nat)
        (job : RecvJob) (kept : UnixPath),
        ((staged.truncateTo path length faults).offerResume job kept
          faults).events = staged.events :=
    fun staged path length _ _ =>
      truncateTo_events staged path length faults
  simp only [Peer.handleAccept]
  split
  · split
    · split
      · split
        · exact resumed _ _ _ _ _
        · rfl
      · split <;> rfl
    · rfl
  · rfl

theorem handleControl_offers
    (peer : Peer) (letter : Letter) (faults : Faults) :
    OffersAnnounced (.control letter faults) peer.events
      (peer.handleControl letter faults).events := by
  have one :
      ∀ {event : PeerEvent},
        (∀ name size resume checksum,
          event ≠ .fileOffered name size resume checksum) →
        OffersAnnounced (.control letter faults) peer.events
          (peer.events ++ [event]) := by
    intro event other
    apply offersAnnounced_append (offersAnnounced_same rfl)
    intro name size resume checksum isOffer
    exact absurd isOffer (other name size resume checksum)
  obtain ⟨message, offer⟩ := letter
  cases message with
  | metadata name size resume checksum =>
      have recorded :
          OffersAnnounced
            (.control ⟨.metadata name size resume checksum, offer⟩ faults)
            peer.events
            (peer.recordOffer name size resume checksum offer).events := by
        have initiated :
            OffersAnnounced
              (.control ⟨.metadata name size resume checksum, offer⟩
                faults)
              peer.events
              (peer.events ++ [.transferInitiationChanged true]) :=
          one nofun
        apply offersAnnounced_append initiated
        intro otherName otherSize otherResume otherChecksum isOffer
        cases isOffer
        rfl
      change OffersAnnounced _ _ (peer.handleMetadata _ _ _ _ _ _).events
      unfold Peer.handleMetadata
      split
      · rw [handleAccept_events]
        exact recorded
      · exact recorded
  | ready =>
      apply offersAnnounced_same
      change peer.handleReady.events = peer.events
      unfold Peer.handleReady
      split <;> rfl
  | resumeReady offset prefixHash =>
      apply offersAnnounced_same
      change
        (peer.handleResumeReady offset prefixHash faults).events =
          peer.events
      unfold Peer.handleResumeReady
      split
      · split
        · split <;> rfl
        · rfl
      · rfl
  | resumeOk =>
      apply offersAnnounced_same
      change peer.handleResumeOk.events = peer.events
      unfold Peer.handleResumeOk
      split <;> rfl
  | restartFromZero =>
      apply offersAnnounced_same
      change (peer.handleRestart faults).events = peer.events
      unfold Peer.handleRestart
      split
      · unfold Peer.recreatePart
        split
        · split
          · rfl
          · split <;> rfl
        · rfl
      · rfl
  | fileSent hash => exact offersAnnounced_same rfl
  | _ => exact one nofun

theorem handleCommand_offers
    (peer : Peer) (command : PeerCommand) (faults : Faults) :
    OffersAnnounced (.command command faults) peer.events
      (peer.handleCommand command faults).events := by
  cases command with
  | sendFile path checksum resume =>
      simp only [Peer.handleCommand, Peer.handleSendFile]
      split
      · exact offersAnnounced_same rfl
      · split
        · exact offersAnnounced_append (offersAnnounced_same rfl) (by simp)
        · exact offersAnnounced_same rfl
  | acceptFile saveDir checksum resume =>
      apply offersAnnounced_same
      rw [Peer.handleCommand, Peer.handleAcceptFile]
      split
      · rw [handleAccept_events]
        rfl
      · rfl
  | rejectFile => exact offersAnnounced_same rfl
  | pause =>
      exact offersAnnounced_append (offersAnnounced_same rfl) (by simp)
  | resume =>
      exact offersAnnounced_append (offersAnnounced_same rfl) (by simp)
  | disconnect => exact offersAnnounced_same rfl

theorem peerStep_offers
    {peer next : Peer} {label : PeerLabel}
    (stepped : peerStep peer label = some next) :
    OffersAnnounced label peer.events next.events := by
  have same :
      ∀ {events : List PeerEvent}, events = peer.events →
        OffersAnnounced label peer.events events :=
    fun unchanged => offersAnnounced_same unchanged
  cases label with
  | control letter faults =>
      simp only [peerStep] at stepped
      split at stepped <;> cases stepped
      exact handleControl_offers peer letter faults
  | command command faults =>
      simp only [peerStep] at stepped
      split at stepped <;> cases stepped
      exact handleCommand_offers peer command faults
  | loopEnds reason =>
      simp only [peerStep] at stepped
      split at stepped <;> cases stepped
      cases reason with
      | none => exact same rfl
      | some text => exact offersAnnounced_append (same rfl) (by simp)
  | send sendLabel =>
      cases sendStep_effect stepped with
      | openFailed job reason _ =>
          exact offersAnnounced_append (same rfl) (by simp)
      | reported stream => exact offersAnnounced_append (same rfl) (by simp)
      | finished stream inlineHash rehashFails _ _ _ _ =>
          exact offersAnnounced_append (same rfl) (by simp)
      | _ => exact same rfl
  | recv recvLabel =>
      have failed :
          ∀ {other : Peer} (status : FileTransferStatus),
            OffersAnnounced (.recv recvLabel) peer.events other.events →
              OffersAnnounced (.recv recvLabel) peer.events
                (other.failReceive status).events :=
        fun status announced => offersAnnounced_append announced (by simp)
      have progressed :
          ∀ (verifying : Verifying) (rest : List String),
            OffersAnnounced (.recv recvLabel) peer.events
              (peer.progressed verifying rest).events :=
        fun verifying rest => offersAnnounced_append (same rfl) (by simp)
      cases recvStep_effect stepped with
      | refused job files _ _ => exact failed .etc (same rfl)
      | seekFailed job files opened _ _ _ => exact failed .etc (same rfl)
      | reported receiving =>
          exact offersAnnounced_append (same rfl) (by simp)
      | gaveUp receiving _ => exact failed .etc (same rfl)
      | rejected verifying rest _ =>
          exact failed .hashFailed (progressed verifying rest)
      | completed verifying expectedHash rest _ _ _ _ =>
          exact offersAnnounced_append (progressed verifying rest) (by simp)
      | committed verifying expectedHash rest renamed _ _ _ _ _ =>
          exact offersAnnounced_append (progressed verifying rest) (by simp)
      | _ => exact same rfl

/-! ## The invariant -/

/-- Nothing in the peer asks for a resume, and no original file is a target. -/
structure Peer.Spares (files : Files) (peer : Peer) : Prop where
  offers :
    ∀ name size resume checksum,
      .fileOffered name size resume checksum ∈ peer.events →
        resume = false
  waiting :
    ∀ accept, peer.coordinator.pendingAccept = some accept →
      accept.resume = false
  noResume : peer.coordinator.pendingResumeRecv = none
  jobs :
    peer.recvSide.Jobs (WritesWithin fun path => ¬ IsOriginal files path)
  touched : ∀ path ∈ peer.touched, ¬ IsOriginal files path
  kept :
    ∀ path content, files path = some (.file content) →
      peer.files path = some (.file content)

def PeerLabel.commandsResume : PeerLabel → Bool
  | .command (.acceptFile _ _ resume) _ => resume
  | _ => false

variable {original : Files} {peer next : Peer} {label : PeerLabel}

theorem applied_noResume
    {applied : AppliedAccept} (spares : peer.Spares original)
    (commanded : label.commandsResume = false)
    (isApplied : peer.applied label = some applied) :
    applied.accept.resume = false := by
  unfold Peer.applied at isApplied
  split at isApplied
  · obtain ⟨accept, waiting, rfl⟩ := Option.map_eq_some_iff.mp isApplied
    exact spares.waiting accept waiting
  · split at isApplied <;> cases isApplied
    exact commanded
  · cases isApplied

/-- Without resume the loop neither waits for an answer nor touches a
file. -/
theorem loopEffect_spares
    {side : RecvSide} (spares : peer.Spares original)
    (commanded : label.commandsResume = false)
    (effect : LoopEffect peer label side) :
    side.pendingResumeRecv = none ∧ side.touched = peer.touched := by
  have noJob :
      ∀ job, peer.coordinator.pendingResumeRecv ≠ some job := by
    rw [spares.noResume]
    nofun
  cases effect with
  | quiet _ => exact ⟨spares.noResume, rfl⟩
  | accepted applied faults side isApplied _ effect =>
      have noResume := applied_noResume spares commanded isApplied
      have notResumed : applied.accept.resume ≠ true := by
        rw [noResume]
        exact Bool.false_ne_true
      cases effect with
      | small offer _ => exact ⟨spares.noResume, rfl⟩
      | fresh offer _ => exact ⟨spares.noResume, rfl⟩
      | keepPart offer existing _ resume _ _ _ =>
          exact absurd resume notResumed
      | cutPart offer existing cut _ resume _ _ _ =>
          exact absurd resume notResumed
      | keepDest offer _ resume _ _ _ => exact absurd resume notResumed
  | resumed job _ _ resuming => exact absurd resuming (noJob job)
  | restarted job _ _ resuming => exact absurd resuming (noJob job)
  | recreated job partPath created _ _ resuming _ _ =>
      exact absurd resuming (noJob job)

theorem asksResume_of_message
    {name : String} {size : Nat} {resume checksum : Bool}
    (message :
      label.message = some (.metadata name size resume checksum)) :
    label.asksResume = resume := by
  cases label with
  | control letter faults =>
      obtain ⟨_, offer⟩ := letter
      cases message
      rfl
  | _ => cases message

theorem peerStep_spares
    (spares : peer.Spares original)
    (afresh : label.asksResume = false)
    (commanded : label.commandsResume = false)
    (clear :
      ∀ applied, peer.applied label = some applied →
        ¬ IsOriginal original applied.destPath ∧
          (resumeThresholdBytes ≤ applied.size →
            ¬ IsOriginal original applied.partPath))
    (stepped : peerStep peer label = some next) :
    next.Spares original := by
  have receives :
      next.coordinator.pendingResumeRecv = none ∧
        ∀ path ∈ next.touched, ¬ IsOriginal original path := by
    rcases peerStep_effect stepped with effect | ⟨recvLabel, _, effect⟩
    · obtain ⟨noResume, same⟩ :=
        loopEffect_spares spares commanded effect
      have same : next.touched = peer.touched := same
      rw [same]
      exact ⟨noResume, spares.touched⟩
    · rw [taskEffect_coordinator effect]
      refine ⟨spares.noResume, ?_⟩
      intro path member
      rcases taskEffect_touched spares.jobs effect path member with
        earlier | ⟨job, ⟨target, dest⟩, isTarget | isDest⟩
      · exact spares.touched path earlier
      · rw [isTarget]
        exact target
      · rw [isDest]
        exact dest
  constructor
  case offers =>
    intro name size resume checksum member
    rcases peerStep_offers stepped name size resume checksum member with
      earlier | message
    · exact spares.offers name size resume checksum earlier
    · rw [← asksResume_of_message message]
      exact afresh
  case waiting =>
    have slots := peerStep_slots stepped
    have isAccept :
        next.coordinator.pendingAccept = next.slots.accept := rfl
    rw [isAccept]
    generalize next.slots = after at slots
    cases slots with
    | unchanged => exact spares.waiting
    | offered name size _ _ => nofun
    | autoAccepted => nofun
    | taken => exact spares.waiting
    | waiting accept isCommand =>
        obtain ⟨faults, rfl⟩ := isCommand
        intro other stored
        rw [← Option.some.inj stored]
        exact commanded
  case noResume => exact receives.1
  case jobs =>
    apply
      peerStep_jobs spares.jobs (writesWithin_stable _) ?_ stepped
    intro applied isApplied
    obtain ⟨dest, part⟩ := clear applied isApplied
    exact (leads_writesWithin dest part).within
  case touched => exact receives.2
  case kept =>
    intro path content isOriginal
    apply untouched_file_kept stepped _ (spares.kept path content isOriginal)
    intro member
    exact receives.2 path member ⟨content, isOriginal⟩

structure Worker.Spares (files : Files) (worker : Worker) : Prop where
  refuses : worker.config.conflictPolicy = .refuse
  noResume : worker.config.resume = false
  peer : worker.peer.Spares files
  commands :
    ∀ saveDir checksum resume,
      .acceptFile saveDir checksum resume ∈ worker.commands →
        resume = false
  approved : ∀ path ∈ worker.approved, ¬ IsOriginal files path

variable {worker after : Worker}

theorem notOriginal_of_clears
    {path : UnixPath} (spares : worker.Spares original)
    (clears : worker.Clears path) :
    ¬ IsOriginal original path := by
  rcases clears with approved | touched | absent
  · exact spares.approved path approved
  · exact spares.peer.touched path touched
  · rintro ⟨content, isOriginal⟩
    have present :=
      FileStore.content?_eq_some.mpr
        (spares.peer.kept path content isOriginal)
    rw [absent] at present
    cases present

/-- The step of the peer in a step of the worker. -/
theorem spares_peerStep
    {workerLabel : WorkerLabel} (spares : worker.Spares original)
    (isLabel : worker.peerLabel workerLabel = some label)
    (afresh : worker.OffersAfresh workerLabel)
    (cleared : worker.AcceptsCleared workerLabel)
    (commanded : label.commandsResume = false)
    (stepped : peerStep worker.peer label = some next) :
    next.Spares original := by
  apply
    peerStep_spares spares.peer (afresh label isLabel) commanded ?_
      stepped
  intro applied isApplied
  obtain ⟨dest, part⟩ := cleared label isLabel applied isApplied
  exact
    ⟨notOriginal_of_clears spares dest,
      fun large => notOriginal_of_clears spares (part large)⟩

/-- Answering an offer approves only what is not there. -/
theorem answer_spares
    {event : PeerEvent} (spares : worker.Spares original)
    (member : event ∈ worker.peer.events) :
    (worker.answer event).Spares original := by
  have stops :
      ∀ running,
        Worker.Spares original { worker with running := running } :=
    fun _ =>
      ⟨spares.refuses, spares.noResume, spares.peer, spares.commands,
        spares.approved⟩
  have shutsDown : worker.shutDown.Spares original := by
    obtain ⟨offers, waiting, noResume, jobs, touched, kept⟩ := spares.peer
    exact
      ⟨spares.refuses, spares.noResume,
        ⟨offers, waiting, noResume, jobs, touched, kept⟩,
        spares.commands, spares.approved⟩
  cases event with
  | fileOffered name size resume checksum =>
      have afresh := spares.peer.offers name size resume checksum member
      rw [afresh, Worker.answer]
      split
      · exact stops false
      · rename_i command answered
        obtain ⟨safeName, named⟩ :
            ∃ safeName, fileName (components name) = some safeName := by
          unfold WorkerConfig.answerOffer at answered
          split at answered
          · cases answered
          · exact ⟨_, ‹_›⟩
        rcases
          approved_destination_absent spares.refuses spares.noResume named
            answered with rfl | ⟨absent, rfl⟩
        · refine
            ⟨spares.refuses, spares.noResume, spares.peer, ?_,
              spares.approved⟩
          intro saveDir checksum resume queued
          rcases List.mem_append.mp queued with earlier | new
          · exact spares.commands saveDir checksum resume earlier
          · cases List.mem_singleton.mp new
        · refine
            ⟨spares.refuses, spares.noResume, spares.peer, ?_, ?_⟩
          · intro saveDir checksum resume queued
            rcases List.mem_append.mp queued with earlier | new
            · exact spares.commands saveDir checksum resume earlier
            · cases List.mem_singleton.mp new
              rfl
          · intro path isApproved
            rcases List.mem_append.mp isApproved with earlier | new
            · exact spares.approved path earlier
            · rw [named] at new
              rw [List.mem_singleton.mp new]
              rintro ⟨content, isOriginal⟩
              have present :=
                spares.peer.kept _ content isOriginal
              rw [absent] at present
              cases present
  | transferComplete status => exact shutsDown
  | disconnected reason => exact shutsDown
  | _ => exact spares

theorem workerStep_spares
    {workerLabel : WorkerLabel} (spares : worker.Spares original)
    (afresh : worker.OffersAfresh workerLabel)
    (cleared : worker.AcceptsCleared workerLabel)
    (stepped : workerStep worker workerLabel = some after) :
    after.Spares original := by
  cases workerStep_effect stepped with
  | stepped label next notCommand taken =>
      have commanded : label.commandsResume = false := by
        cases label with
        | command command faults => exact absurd rfl (notCommand _ _)
        | _ => rfl
      have peer :=
        spares_peerStep spares rfl afresh cleared commanded taken
      exact
        ⟨spares.refuses, spares.noResume, peer, spares.commands,
          spares.approved⟩
  | delivered faults command rest next queued taken =>
      have isLabel :
          worker.peerLabel (.deliver faults) =
            some (.command command faults) := by
        rw [Worker.peerLabel, queued]
        rfl
      have inQueue :
          ∀ other, other ∈ command :: rest → other ∈ worker.commands := by
        rw [queued]
        exact fun _ member => member
      have commanded :
          PeerLabel.commandsResume (.command command faults) = false := by
        cases command with
        | acceptFile saveDir checksum resume =>
            exact
              spares.commands saveDir checksum resume
                (inQueue _ List.mem_cons_self)
        | _ => rfl
      have peer :=
        spares_peerStep spares isLabel afresh cleared commanded taken
      refine
        ⟨spares.refuses, spares.noResume, peer, ?_, spares.approved⟩
      intro saveDir checksum resume member
      exact
        spares.commands saveDir checksum resume
          (inQueue _ (List.mem_cons_of_mem _ member))
  | answered event member =>
      have counted :
          Worker.Spares original
            { worker with seen := worker.seen + 1 } :=
        ⟨spares.refuses, spares.noResume, spares.peer, spares.commands,
          spares.approved⟩
      exact answer_spares counted member

theorem initial_spares
    {config : WorkerConfig} (files : Files)
    (refuses : config.conflictPolicy = .refuse)
    (noResume : config.resume = false) :
    (Worker.initial config files).Spares files where
  refuses := refuses
  noResume := noResume
  peer :=
    { offers := by
        intro name size resume checksum member
        cases List.mem_singleton.mp member
      waiting := nofun
      noResume := rfl
      jobs := initial_jobs files
      touched := nofun
      kept := fun _ _ isOriginal => isOriginal }
  commands := nofun
  approved := nofun

/-- Under `--on-conflict refuse` the files that existed when the connection
started stay as they are in every run in which each accept takes effect on an
offer whose destination and staging path are clear. -/
theorem originals_protected
    {config : WorkerConfig} (files : Files)
    (refuses : config.conflictPolicy = .refuse)
    (noResume : config.resume = false)
    {labels : List WorkerLabel} {worker : Worker}
    (run :
      Run workerStep
        (fun worker label =>
          worker.OffersAfresh label ∧ worker.AcceptsCleared label)
        (Worker.initial config files) labels worker) :
    worker.peer.Protects files := by
  have spares : worker.Spares files :=
    run.preserves (Worker.Spares files)
      (fun _ _ _ spares admitted stepped =>
        workerStep_spares spares admitted.1 admitted.2 stepped)
      (initial_spares files refuses noResume)
  intro path content isOriginal
  refine ⟨?_, spares.peer.kept path content isOriginal⟩
  intro member
  exact spares.peer.touched path member ⟨content, isOriginal⟩

/-! ## Concrete runs -/

def refusingConfig : WorkerConfig where
  saveDir := "in"
  verify := false
  resume := false
  conflictPolicy := .refuse

/-- A save directory that holds `old.txt`. -/
def stockedFiles : Files :=
  FileStore.put
    (fun path =>
      if path = components "in" then some (.directory 4096) else none)
    (components "in/old.txt") [1, 2, 3]

/-- The worker answers an offer of `first`, then `second` is offered before
the answer takes effect, and the receive is started. -/
def crossedOffers (first second : String) : List WorkerLabel :=
  [.peer (.control ⟨.metadata first 0 false false, 0⟩ .none),
    .event,
    .event,
    .event,
    .peer (.control ⟨.metadata second 0 false false, 1⟩ .none),
    .deliver .none,
    .peer (.recv .start),
    .peer (.recv (.openTarget .opened))]

/-- An accept for a new name takes effect on the offer of an old one. -/
theorem original_truncated :
    ¬ ∀ (config : WorkerConfig) (files : Files)
        (labels : List WorkerLabel) (worker : Worker),
        config.conflictPolicy = .refuse → config.resume = false →
          Run workerStep Worker.OffersAfresh
              (Worker.initial config files) labels worker →
            worker.peer.Protects files := by
  intro always
  have reached :
      (guardedReplay workerStep Worker.OffersAfresh
        (Worker.initial refusingConfig stockedFiles)
        (crossedOffers "new.txt" "old.txt")).map
          (fun worker =>
            worker.peer.files (components "in/old.txt")) =
        some (some (.file [])) := by
    decide +kernel
  obtain ⟨worker, ran, truncated⟩ := Option.map_eq_some_iff.mp reached
  have original :
      stockedFiles (components "in/old.txt") =
        some (.file [1, 2, 3]) := by
    rw [stockedFiles]
    exact FileStore.put_same _ _ _
  have kept :=
    (always refusingConfig stockedFiles _ worker rfl rfl
      (run_of_guardedReplay ran) _ _ original).2
  rw [truncated] at kept
  cases kept

/-- Two offers of new files, the second accepted in place of the first. -/
theorem originals_protected_new :
    ∃ worker : Worker,
      worker.peer.touched = [components "in/newer.txt"] ∧
        worker.peer.Protects stockedFiles := by
  have reached :
      (guardedReplay workerStep
        (fun worker label =>
          worker.OffersAfresh label ∧ worker.AcceptsCleared label)
        (Worker.initial refusingConfig stockedFiles)
        (crossedOffers "new.txt" "newer.txt")).map
          (fun worker => worker.peer.touched) =
        some [components "in/newer.txt"] := by
    decide +kernel
  obtain ⟨worker, ran, touched⟩ := Option.map_eq_some_iff.mp reached
  exact
    ⟨worker, touched,
      originals_protected stockedFiles rfl rfl
        (run_of_guardedReplay ran)⟩

end Quiczilla
