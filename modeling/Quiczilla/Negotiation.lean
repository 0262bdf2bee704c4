import Quiczilla.Peer

/-!
# What the negotiation of an offer leaves alone

The handlers of `METADATA` and its answers, and of `SendFile` and `AcceptFile`,
change the loop's own variables, start the transfer tasks, prepare a staging
file and answer with further messages of the negotiation.  A view of the peer
that none of these changes is the same before and after all of them.
-/

namespace Quiczilla

open Foundation

universe u

/-- The messages by which an offer is made and answered. -/
def ControlMessage.negotiates : ControlMessage → Bool
  | .metadata _ _ _ _ => true
  | .ready => true
  | .resumeReady _ _ => true
  | .resumeOk => true
  | .restartFromZero => true
  | _ => false

/-- The events that accompany an offer. -/
def PeerEvent.negotiates : PeerEvent → Bool
  | .fileOffered _ _ _ _ => true
  | .transferInitiationChanged _ => true
  | _ => false

def PeerCommand.negotiates : PeerCommand → Bool
  | .sendFile _ _ _ => true
  | .acceptFile _ _ _ => true
  | _ => false

/-- None of the changes that the negotiation is made of shows in the view. -/
structure Unnegotiated {View : Type u} (view : Peer → View) : Prop where
  coordinator :
    ∀ (peer : Peer) (coordinator : Coordinator),
      view { peer with coordinator := coordinator } = view peer
  triggerSend :
    ∀ (peer : Peer) (job : SendJob),
      view (peer.triggerSend job) = view peer
  triggerRecv :
    ∀ (peer : Peer) (job : RecvJob),
      view (peer.triggerRecv job) = view peer
  touch :
    ∀ (peer : Peer) (paths : List UnixPath) (files : Files),
      view (peer.touch paths files) = view peer
  send :
    ∀ (peer : Peer) (message : ControlMessage) (offer : Nat),
      message.negotiates = true →
        view (peer.send message offer) = view peer
  emit :
    ∀ (peer : Peer) (event : PeerEvent),
      event.negotiates = true → view (peer.emit event) = view peer

namespace Unnegotiated

variable {View : Type u} {view : Peer → View}

theorem acceptFresh
    (same : Unnegotiated view) (peer : Peer) (job : RecvJob) :
    view (peer.acceptFresh job) = view peer := by
  rw [Peer.acceptFresh, same.send _ _ _ rfl, same.triggerRecv]

theorem truncateTo
    (same : Unnegotiated view) (peer : Peer) (path : UnixPath)
    (length : Nat) (faults : Faults) :
    view (peer.truncateTo path length faults) = view peer := by
  unfold Peer.truncateTo
  split
  · rfl
  · split
    · exact same.touch peer [path] _
    · rfl

theorem offerResume
    (same : Unnegotiated view) (peer : Peer) (job : RecvJob)
    (path : UnixPath) (faults : Faults) :
    view (peer.offerResume job path faults) = view peer := by
  rw [Peer.offerResume, same.send _ _ _ rfl]
  exact same.coordinator peer _

theorem handleAccept
    (same : Unnegotiated view) (peer : Peer) (accept : PendingAccept)
    (name : String) (size : Nat) (faults : Faults) :
    view (peer.handleAccept accept name size faults) = view peer := by
  have staged (path : Option UnixPath) :
      view (peer.withPartPath path) = view peer :=
    same.coordinator peer _
  simp only [Peer.handleAccept]
  split
  · split
    · split
      · split
        · rw [same.offerResume, same.truncateTo, staged]
        · rw [same.acceptFresh, staged]
      · split
        · rw [same.offerResume, staged]
        · rw [same.acceptFresh, staged]
    · rw [same.acceptFresh, staged]
  · rw [same.acceptFresh, staged]

theorem handleMetadata
    (same : Unnegotiated view) (peer : Peer) (name : String) (size : Nat)
    (resume checksum : Bool) (offer : Nat) (faults : Faults) :
    view (peer.handleMetadata name size resume checksum offer faults) =
      view peer := by
  have recorded :
      view (peer.recordOffer name size resume checksum offer) =
        view peer := by
    rw [Peer.recordOffer, same.emit _ _ rfl, same.emit _ _ rfl]
    exact same.coordinator peer _
  unfold Peer.handleMetadata
  split
  · rw [same.handleAccept, ← recorded]
    have taken :=
      same.coordinator (peer.recordOffer name size resume checksum offer)
    exact (same.coordinator _ _).trans (taken _)
  · exact recorded

theorem startPending
    (same : Unnegotiated view) (peer : Peer) (pending : PendingSend)
    (offset : Nat) :
    view (peer.startPending pending offset) = view peer := by
  rw [Peer.startPending, same.triggerSend]
  exact same.coordinator peer _

theorem handleReady (same : Unnegotiated view) (peer : Peer) :
    view peer.handleReady = view peer := by
  unfold Peer.handleReady
  split
  · exact same.startPending peer _ 0
  · rfl

theorem handleResumeReady
    (same : Unnegotiated view) (peer : Peer) (offset : Nat)
    (prefixHash : Option String) (faults : Faults) :
    view (peer.handleResumeReady offset prefixHash faults) =
      view peer := by
  unfold Peer.handleResumeReady
  split
  · split
    · split
      · rw [same.startPending, same.send _ _ _ rfl]
      · rw [same.send _ _ _ rfl]
        exact same.coordinator peer _
    · exact same.startPending peer _ 0
  · rfl

theorem handleResumeOk (same : Unnegotiated view) (peer : Peer) :
    view peer.handleResumeOk = view peer := by
  unfold Peer.handleResumeOk
  split
  · rw [same.triggerRecv]
    exact same.coordinator peer _
  · rfl

theorem recreatePart
    (same : Unnegotiated view) (peer : Peer) (faults : Faults) :
    view (peer.recreatePart faults) = view peer := by
  unfold Peer.recreatePart
  split
  · split
    · rfl
    · split
      · exact same.touch peer _ _
      · rfl
  · rfl

theorem handleRestart
    (same : Unnegotiated view) (peer : Peer) (faults : Faults) :
    view (peer.handleRestart faults) = view peer := by
  unfold Peer.handleRestart
  split
  · rw [same.acceptFresh, same.recreatePart]
    exact same.coordinator peer _
  · rfl

/-- A message of the negotiation. -/
theorem dispatch
    (same : Unnegotiated view) (peer : Peer) {letter : Letter}
    (negotiates : letter.message.negotiates = true) (faults : Faults) :
    view (peer.dispatch letter faults) = view peer := by
  obtain ⟨message, offer⟩ := letter
  cases message with
  | metadata name size resume checksum =>
      exact same.handleMetadata peer name size resume checksum offer faults
  | ready => exact same.handleReady peer
  | resumeReady offset prefixHash =>
      exact same.handleResumeReady peer offset prefixHash faults
  | resumeOk => exact same.handleResumeOk peer
  | restartFromZero => exact same.handleRestart peer faults
  | _ => cases negotiates

theorem handleSendFile
    (same : Unnegotiated view) (peer : Peer) (pending : PendingSend)
    (faults : Faults) :
    view (peer.handleSendFile pending faults) = view peer := by
  unfold Peer.handleSendFile
  split
  · rfl
  · split
    · rw [Peer.announce, same.send _ _ _ rfl, same.emit _ _ rfl]
      exact same.coordinator peer _
    · rfl

theorem handleAcceptFile
    (same : Unnegotiated view) (peer : Peer) (accept : PendingAccept)
    (faults : Faults) :
    view (peer.handleAcceptFile accept faults) = view peer := by
  have cleared : view peer.clearOffer = view peer :=
    same.coordinator peer _
  unfold Peer.handleAcceptFile
  split
  · rw [same.handleAccept, cleared]
  · exact (same.coordinator peer.clearOffer _).trans cleared

/-- A command of the negotiation. -/
theorem handleCommand
    (same : Unnegotiated view) (peer : Peer) {command : PeerCommand}
    (negotiates : command.negotiates = true) (faults : Faults) :
    view (peer.handleCommand command faults) = view peer := by
  cases command with
  | sendFile path checksum resume =>
      exact same.handleSendFile peer ⟨path, checksum, resume⟩ faults
  | acceptFile saveDir checksum resume =>
      exact same.handleAcceptFile peer ⟨saveDir, checksum, resume⟩ faults
  | _ => cases negotiates

end Unnegotiated

/-! ## What the whole loop leaves alone -/

/-- The steps of the coordination loop. -/
def PeerLabel.isLoop : PeerLabel → Bool
  | .send _ => false
  | .recv _ => false
  | _ => true

/-- Nothing that the coordination loop changes shows in the view. -/
structure Uncoordinated {View : Type u} (view : Peer → View) : Prop where
  unnegotiated : Unnegotiated view
  send :
    ∀ (peer : Peer) (message : ControlMessage) (offer : Nat),
      view (peer.send message offer) = view peer
  emit :
    ∀ (peer : Peer) (event : PeerEvent),
      view (peer.emit event) = view peer
  setPaused :
    ∀ (peer : Peer) (paused : Bool),
      view (peer.setPaused paused) = view peer
  enqueueHash :
    ∀ (peer : Peer) (hashes : List String),
      view { peer with hashQueue := hashes } = view peer
  cancel :
    ∀ peer : Peer, view { peer with cancelled := true } = view peer
  endMain :
    ∀ peer : Peer, view { peer with mainEnded := true } = view peer
  noteHandled :
    ∀ (peer : Peer) (message : ControlMessage),
      view (peer.noteHandled message) = view peer

theorem Uncoordinated.loopStep
    {View : Type u} {view : Peer → View} (same : Uncoordinated view)
    {peer next : Peer} {label : PeerLabel} (isLoop : label.isLoop = true)
    (stepped : peerStep peer label = some next) :
    view next = view peer := by
  cases label with
  | control letter faults =>
      simp only [peerStep] at stepped
      split at stepped <;> cases stepped
      rw [Peer.handleControl, same.noteHandled]
      by_cases negotiates : letter.message.negotiates = true
      · exact same.unnegotiated.dispatch peer negotiates faults
      · obtain ⟨message, offer⟩ := letter
        cases message with
        | pause => exact (same.emit _ _).trans (same.setPaused peer true)
        | resume => exact (same.emit _ _).trans (same.setPaused peer false)
        | fileSent hash => exact same.enqueueHash peer _
        | receivedFileFailed => exact (same.emit _ _).trans (same.cancel peer)
        | receivedFileOk => exact same.emit peer _
        | rejectedUnwanted => exact same.emit peer _
        | rejectedAlreadyReceiving => exact same.emit peer _
        | rejectedAlreadySending => exact same.emit peer _
        | _ => exact absurd rfl negotiates
  | command command faults =>
      simp only [peerStep] at stepped
      split at stepped <;> cases stepped
      by_cases negotiates : command.negotiates = true
      · exact same.unnegotiated.handleCommand peer negotiates faults
      · cases command with
        | rejectFile =>
            exact
              (same.send _ _ _).trans (same.unnegotiated.coordinator peer _)
        | pause =>
            rw [Peer.handleCommand, same.emit, same.send, same.setPaused]
        | resume =>
            rw [Peer.handleCommand, same.emit, same.send, same.setPaused]
        | disconnect => exact same.endMain peer
        | _ => exact absurd rfl negotiates
  | loopEnds reason =>
      simp only [peerStep] at stepped
      split at stepped <;> cases stepped
      cases reason with
      | none => exact same.endMain peer
      | some text => exact (same.emit _ _).trans (same.endMain peer)
  | send label => cases isLoop
  | recv label => cases isLoop

/-- The part of a peer that belongs to its two transfer tasks. -/
structure TaskSide where
  sender : SendPhase
  receiver : RecvPhase
  fileOut : List UInt8
  unsent : List UInt8
  fileSent : List UInt8
  receipts : List Receipt

def Peer.taskSide (peer : Peer) : TaskSide where
  sender := peer.sender
  receiver := peer.receiver
  fileOut := peer.fileOut
  unsent := peer.unsent
  fileSent := peer.fileSent
  receipts := peer.receipts

theorem taskSide_uncoordinated : Uncoordinated Peer.taskSide where
  unnegotiated :=
    { coordinator := fun _ _ => rfl
      triggerSend := fun _ _ => rfl
      triggerRecv := fun _ _ => rfl
      touch := fun _ _ _ => rfl
      send := fun _ _ _ _ => rfl
      emit := fun _ _ _ => rfl }
  send _ _ _ := rfl
  emit _ _ := rfl
  setPaused _ _ := rfl
  enqueueHash _ _ := rfl
  cancel _ := rfl
  endMain _ := rfl
  noteHandled _ _ := rfl

/-- A step of the loop leaves both transfer tasks where they are. -/
theorem loopStep_taskSide
    {peer next : Peer} {label : PeerLabel} (isLoop : label.isLoop = true)
    (stepped : peerStep peer label = some next) :
    next.taskSide = peer.taskSide :=
  taskSide_uncoordinated.loopStep isLoop stepped

end Quiczilla
