import Quiczilla.ConflictRefusal
import Quiczilla.LinkHandshake

/-!
# What a peer tells its application

`run_peer` only adds to the events.  `Connected` is the first of them and comes
once, and a `FileOffered` repeats the `METADATA` that the loop takes.
-/

namespace Quiczilla

open Foundation

def PeerEvent.isOffer : PeerEvent → Bool
  | .fileOffered _ _ _ _ => true
  | _ => false

/-- The offer that the application is told of. -/
def ControlMessage.offered : ControlMessage → List PeerEvent
  | .metadata name size resumes checksum =>
      [.fileOffered name size resumes checksum]
  | _ => []

def PeerLabel.offered (label : PeerLabel) : List PeerEvent :=
  (label.message.map ControlMessage.offered).getD []

/-- The new events are behind the earlier ones, and of these only the given
ones are offers. -/
def EventsAdded (offered before after : List PeerEvent) : Prop :=
  ∃ new, after = before ++ new ∧
    new.filter PeerEvent.isOffer = offered ∧ .connected ∉ new

section Added

variable {offered before after : List PeerEvent} {event : PeerEvent}

theorem eventsAdded_same (same : after = before) :
    EventsAdded [] before after := by
  refine ⟨[], ?_, rfl, List.not_mem_nil⟩
  rw [same, List.append_nil]

/-- An event that is neither an offer nor the first is added. -/
theorem EventsAdded.other
    (added : EventsAdded offered before after)
    (noOffer : event.isOffer = false) (notFirst : event ≠ .connected) :
    EventsAdded offered before (after ++ [event]) := by
  obtain ⟨new, isAfter, offers, unconnected⟩ := added
  refine ⟨new ++ [event], ?_, ?_, ?_⟩
  · rw [isAfter, List.append_assoc]
  · rw [List.filter_append, offers, List.filter_cons, noOffer]
    simp
  · intro member
    obtain earlier | last := List.mem_append.mp member
    · exact unconnected earlier
    · exact notFirst (List.mem_singleton.mp last).symm

theorem EventsAdded.offer
    (added : EventsAdded offered before after)
    (isOffer : event.isOffer = true) :
    EventsAdded (offered ++ [event]) before (after ++ [event]) := by
  obtain ⟨new, isAfter, offers, unconnected⟩ := added
  refine ⟨new ++ [event], ?_, ?_, ?_⟩
  · rw [isAfter, List.append_assoc]
  · rw [List.filter_append, offers, List.filter_cons, isOffer]
    simp
  · intro member
    obtain earlier | last := List.mem_append.mp member
    · exact unconnected earlier
    · rw [← List.mem_singleton.mp last] at isOffer
      cases isOffer

theorem EventsAdded.prefix
    (added : EventsAdded offered before after) : before <+: after := by
  obtain ⟨new, isAfter, -, -⟩ := added
  exact ⟨new, isAfter.symm⟩

theorem EventsAdded.offers
    (added : EventsAdded offered before after) :
    after.filter PeerEvent.isOffer =
      before.filter PeerEvent.isOffer ++ offered := by
  obtain ⟨new, isAfter, offers, -⟩ := added
  rw [isAfter, List.filter_append, offers]

theorem EventsAdded.connections
    (added : EventsAdded offered before after) :
    after.count .connected = before.count .connected := by
  obtain ⟨new, isAfter, -, unconnected⟩ := added
  rw [isAfter, List.count_append, List.count_eq_zero.mpr unconnected,
    Nat.add_zero]

end Added

/-! ## The loop -/

theorem recordOffer_events
    (peer : Peer) (name : String) (size : Nat) (resume checksum : Bool)
    (offer : Nat) :
    EventsAdded [.fileOffered name size resume checksum] peer.events
      (peer.recordOffer name size resume checksum offer).events := by
  have initiated :
      EventsAdded [] peer.events
        (peer.events ++ [.transferInitiationChanged true]) :=
    (eventsAdded_same rfl).other rfl (by simp)
  exact @EventsAdded.offer _ _ _ (.fileOffered name size resume checksum)
    initiated rfl

theorem dispatch_events
    (peer : Peer) (letter : Letter) (faults : Faults) :
    EventsAdded letter.message.offered peer.events
      (peer.dispatch letter faults).events := by
  have one {event : PeerEvent} (noOffer : event.isOffer = false)
      (notFirst : event ≠ .connected) :
      EventsAdded [] peer.events (peer.events ++ [event]) :=
    (eventsAdded_same rfl).other noOffer notFirst
  obtain ⟨message, offer⟩ := letter
  cases message with
  | metadata name size resume checksum =>
      simp only [Peer.dispatch, Peer.handleMetadata]
      split
      · rw [handleAccept_events]
        exact recordOffer_events peer name size resume checksum offer
      · exact recordOffer_events peer name size resume checksum offer
  | ready =>
      apply eventsAdded_same
      simp only [Peer.dispatch, Peer.handleReady]
      split <;> rfl
  | resumeReady offset prefixHash =>
      apply eventsAdded_same
      simp only [Peer.dispatch, Peer.handleResumeReady]
      split
      · split
        · split <;> rfl
        · rfl
      · rfl
  | resumeOk =>
      apply eventsAdded_same
      simp only [Peer.dispatch, Peer.handleResumeOk]
      split <;> rfl
  | restartFromZero =>
      apply eventsAdded_same
      simp only [Peer.dispatch, Peer.handleRestart, Peer.recreatePart]
      split
      · split
        · split
          · rfl
          · split <;> rfl
        · rfl
      · rfl
  | fileSent hash => exact eventsAdded_same rfl
  | _ => exact one rfl (by simp)

theorem handleCommand_events
    (peer : Peer) (command : PeerCommand) (faults : Faults) :
    EventsAdded [] peer.events
      (peer.handleCommand command faults).events := by
  have one {event : PeerEvent} (noOffer : event.isOffer = false)
      (notFirst : event ≠ .connected) :
      EventsAdded [] peer.events (peer.events ++ [event]) :=
    (eventsAdded_same rfl).other noOffer notFirst
  cases command with
  | sendFile path checksum resume =>
      simp only [Peer.handleCommand, Peer.handleSendFile]
      split
      · exact eventsAdded_same rfl
      · split
        · exact @one (.transferInitiationChanged true) rfl (by simp)
        · exact eventsAdded_same rfl
  | acceptFile saveDir checksum resume =>
      apply eventsAdded_same
      simp only [Peer.handleCommand, Peer.handleAcceptFile]
      split
      · rw [handleAccept_events]
        rfl
      · rfl
  | rejectFile => exact eventsAdded_same rfl
  | pause => exact @one .transferPaused rfl (by simp)
  | resume => exact @one .transferResumed rfl (by simp)
  | disconnect => exact eventsAdded_same rfl

/-! ## A step of the peer -/

theorem sendStep_events
    {peer next : Peer} {label : SendLabel}
    (stepped : peer.sendStep label = some next) :
    EventsAdded [] peer.events next.events := by
  have one {event : PeerEvent} (noOffer : event.isOffer = false)
      (notFirst : event ≠ .connected) :
      EventsAdded [] peer.events (peer.events ++ [event]) :=
    (eventsAdded_same rfl).other noOffer notFirst
  cases sendStep_effect stepped with
  | openFailed job reason => exact one rfl (by simp)
  | reported stream => exact one rfl (by simp)
  | finished stream inlineHash rehashFails => exact one rfl (by simp)
  | _ => exact eventsAdded_same rfl

theorem recvStep_events
    {peer next : Peer} {label : RecvLabel}
    (stepped : peer.recvStep label = some next) :
    EventsAdded [] peer.events next.events := by
  have one {event : PeerEvent} (noOffer : event.isOffer = false)
      (notFirst : event ≠ .connected) :
      EventsAdded [] peer.events (peer.events ++ [event]) :=
    (eventsAdded_same rfl).other noOffer notFirst
  cases recvStep_effect stepped with
  | refused job files => exact one rfl (by simp)
  | seekFailed job files opened => exact one rfl (by simp)
  | reported current => exact one rfl (by simp)
  | gaveUp current => exact one rfl (by simp)
  | rejected current rest =>
      exact EventsAdded.other (one rfl (by simp)) rfl (by simp)
  | completed current expectedHash rest =>
      exact EventsAdded.other (one rfl (by simp)) rfl (by simp)
  | committed current expectedHash rest renamed =>
      exact EventsAdded.other (one rfl (by simp)) rfl (by simp)
  | _ => exact eventsAdded_same rfl

/-- Every step adds to the events what its message offers, and nothing before
what is there. -/
theorem peerStep_events
    {peer next : Peer} {label : PeerLabel}
    (stepped : peerStep peer label = some next) :
    EventsAdded label.offered peer.events next.events := by
  cases label with
  | control letter faults =>
      rw [peerStep_control stepped]
      exact dispatch_events peer letter faults
  | command command faults =>
      rw [peerStep_command stepped]
      exact handleCommand_events peer command faults
  | loopEnds reason =>
      rw [peerStep_ends stepped]
      cases reason with
      | none => exact eventsAdded_same rfl
      | some text =>
          exact
            (eventsAdded_same rfl).other
              rfl (by simp)
  | send label => exact sendStep_events stepped
  | recv label => exact recvStep_events stepped

end Quiczilla
