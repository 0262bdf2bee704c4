import Quiczilla.ReceiveSide

/-!
# Which offer an accept applies to

`AcceptFile` takes the offer that is stored at the time, and an accept that
finds none waits for the next `METADATA`.  The slots change only through
`METADATA`, `AcceptFile` and `RejectFile`.
-/

namespace Quiczilla

open Foundation

structure OfferSlots where
  name : Option String
  size : Option Nat
  accept : Option PendingAccept
  deriving DecidableEq, Repr

def Peer.slots (peer : Peer) : OfferSlots where
  name := peer.coordinator.offeredFileName
  size := peer.coordinator.offeredFileSize
  accept := peer.coordinator.pendingAccept

/-- Everything that a step can do to the slots. -/
inductive SlotEffect (slots : OfferSlots) (label : PeerLabel) :
    OfferSlots → Prop
  | unchanged : SlotEffect slots label slots
  | offered (name : String) (size : Nat) :
      (∃ resume checksum,
        label.message = some (.metadata name size resume checksum)) →
      slots.accept = none →
      SlotEffect slots label ⟨some name, some size, none⟩
  | autoAccepted : SlotEffect slots label ⟨none, none, none⟩
  | taken : SlotEffect slots label ⟨none, none, slots.accept⟩
  | waiting (accept : PendingAccept) :
      (∃ faults,
        label =
          .command
            (.acceptFile accept.saveDir accept.checksum accept.resume)
            faults) →
      SlotEffect slots label ⟨none, none, some accept⟩

theorem truncateTo_slots
    (peer : Peer) (path : UnixPath) (length : Nat) (faults : Faults) :
    (peer.truncateTo path length faults).slots = peer.slots := by
  unfold Peer.truncateTo
  split
  · rfl
  · split <;> rfl

theorem handleAccept_slots
    (peer : Peer) (accept : PendingAccept) (name : String) (size : Nat)
    (faults : Faults) :
    (peer.handleAccept accept name size faults).slots = peer.slots := by
  have resumed :
      ∀ (staged : Peer) (path : UnixPath) (length : Nat)
        (job : RecvJob) (kept : UnixPath),
        ((staged.truncateTo path length faults).offerResume job kept
          faults).slots = staged.slots :=
    fun staged path length _ _ =>
      truncateTo_slots staged path length faults
  simp only [Peer.handleAccept]
  split
  · split
    · split
      · split
        · exact resumed _ _ _ _ _
        · rfl
      · split <;> rfl
    · rfl
  · rfl

theorem handleMetadata_slots
    (peer : Peer) {letter : Letter} {name : String} {size : Nat}
    {resume checksum : Bool} (faults : Faults)
    (message : letter.message = .metadata name size resume checksum) :
    SlotEffect peer.slots (.control letter faults)
      (peer.handleMetadata name size resume checksum letter.offer
        faults).slots := by
  unfold Peer.handleMetadata
  split
  · rw [handleAccept_slots]
    exact SlotEffect.autoAccepted
  · rename_i noneWaiting
    have offered :
        (peer.recordOffer name size resume checksum letter.offer).slots =
          ⟨some name, some size, none⟩ := by
      rw [← noneWaiting]
      rfl
    rw [offered]
    refine SlotEffect.offered name size ⟨resume, checksum, ?_⟩ noneWaiting
    rw [PeerLabel.message, message]

theorem handleRestart_slots (peer : Peer) (faults : Faults) :
    (peer.handleRestart faults).slots = peer.slots := by
  unfold Peer.handleRestart
  split
  · unfold Peer.recreatePart
    split
    · split
      · rfl
      · split <;> rfl
    · rfl
  · rfl

theorem handleControl_slots
    (peer : Peer) (letter : Letter) (faults : Faults) :
    SlotEffect peer.slots (.control letter faults)
      (peer.handleControl letter faults).slots := by
  have same :
      ∀ {next : Peer}, next.slots = peer.slots →
        SlotEffect peer.slots (.control letter faults) next.slots := by
    intro next unchanged
    rw [unchanged]
    exact SlotEffect.unchanged
  obtain ⟨message, offer⟩ := letter
  cases message with
  | metadata name size resume checksum =>
      exact handleMetadata_slots peer faults rfl
  | ready =>
      apply same
      change peer.handleReady.slots = peer.slots
      unfold Peer.handleReady
      split <;> rfl
  | resumeReady offset prefixHash =>
      apply same
      change
        (peer.handleResumeReady offset prefixHash faults).slots =
          peer.slots
      unfold Peer.handleResumeReady
      split
      · split
        · split <;> rfl
        · rfl
      · rfl
  | resumeOk =>
      apply same
      change peer.handleResumeOk.slots = peer.slots
      unfold Peer.handleResumeOk
      split <;> rfl
  | restartFromZero =>
      apply same
      exact handleRestart_slots peer faults
  | _ => exact SlotEffect.unchanged

theorem handleCommand_slots
    (peer : Peer) (command : PeerCommand) (faults : Faults) :
    SlotEffect peer.slots (.command command faults)
      (peer.handleCommand command faults).slots := by
  cases command with
  | sendFile path checksum resume =>
      have unchanged :
          (peer.handleSendFile ⟨path, checksum, resume⟩ faults).slots =
            peer.slots := by
        unfold Peer.handleSendFile
        split
        · rfl
        · split <;> rfl
      rw [Peer.handleCommand, unchanged]
      exact SlotEffect.unchanged
  | acceptFile saveDir checksum resume =>
      rw [Peer.handleCommand, Peer.handleAcceptFile]
      split
      · rw [handleAccept_slots]
        exact SlotEffect.taken
      · exact
          SlotEffect.waiting ⟨saveDir, checksum, resume⟩ ⟨faults, rfl⟩
  | rejectFile => exact SlotEffect.taken
  | pause => exact SlotEffect.unchanged
  | resume => exact SlotEffect.unchanged
  | disconnect => exact SlotEffect.unchanged

theorem peerStep_slots
    {peer next : Peer} {label : PeerLabel}
    (stepped : peerStep peer label = some next) :
    SlotEffect peer.slots label next.slots := by
  have same :
      ∀ {slots : OfferSlots}, slots = peer.slots →
        SlotEffect peer.slots label slots := by
    rintro slots rfl
    exact SlotEffect.unchanged
  cases label with
  | control letter faults =>
      simp only [peerStep] at stepped
      split at stepped <;> cases stepped
      exact handleControl_slots peer letter faults
  | command command faults =>
      simp only [peerStep] at stepped
      split at stepped <;> cases stepped
      exact handleCommand_slots peer command faults
  | loopEnds reason =>
      simp only [peerStep] at stepped
      split at stepped <;> cases stepped
      apply same
      cases reason <;> rfl
  | send sendLabel =>
      apply same
      cases sendStep_effect stepped <;> rfl
  | recv recvLabel =>
      apply same
      cases recvStep_effect stepped <;> rfl

end Quiczilla
