import Quiczilla.Foundation.MirroredValue
import Quiczilla.Negotiation
import Quiczilla.ReceiveSide
import Quiczilla.SendSide

/-!
# The pause flags of two peers

`Pause` and `Resume` set the flag of the peer at once and go to the other peer,
which sets its flag when the message arrives.  The flags of two connected peers
are a mirrored value, and they agree in the end unless the last command crossed
a different one.

The two peers here run with everything that they do.  What the receive tasks
read is not tied to what the other side sent: the flags do not depend on it.
-/

namespace Quiczilla

open Foundation

/-! ## Two connected peers -/

structure PeerPair where
  left : Peer
  right : Peer

inductive PairLabel where
  | left (label : PeerLabel)
  | right (label : PeerLabel)
  | arriveLeft (faults : Faults)
  | arriveRight (faults : Faults)

def PeerPair.initial (leftFiles rightFiles : Files) : PeerPair where
  left := .initial leftFiles
  right := .initial rightFiles

def PeerLabel.isControl : PeerLabel → Bool
  | .control _ _ => true
  | _ => false

/-- A message leaves the outbox of its sender. -/
def Peer.post (peer : Peer) (rest : List Letter) : Peer :=
  { peer with outbox := rest }

/-- Control messages arrive in the order in which they were sent. -/
def pairStep (pair : PeerPair) : PairLabel → Option PeerPair
  | .left label =>
      if label.isControl then none
      else
        (peerStep pair.left label).map fun left => { pair with left := left }
  | .right label =>
      if label.isControl then none
      else
        (peerStep pair.right label).map fun right =>
          { pair with right := right }
  | .arriveLeft faults =>
      match pair.right.outbox with
      | letter :: rest =>
          (peerStep pair.left (.control letter faults)).map fun left =>
            ⟨left, pair.right.post rest⟩
      | [] => none
  | .arriveRight faults =>
      match pair.left.outbox with
      | letter :: rest =>
          (peerStep pair.right (.control letter faults)).map fun right =>
            ⟨pair.left.post rest, right⟩
      | [] => none

/-! ## The flags -/

/-- The flag that a message carries. -/
def Letter.flag? (letter : Letter) : Option Bool :=
  match letter.message with
  | .pause => some true
  | .resume => some false
  | _ => none

/-- The flags that are under way from this peer. -/
def Peer.flags (peer : Peer) : List Bool :=
  peer.outbox.filterMap Letter.flag?

def PeerPair.mirror (pair : PeerPair) : Mirror Bool where
  left := pair.left.paused
  right := pair.right.paused
  toLeft := pair.right.flags
  toRight := pair.left.flags

/-- The flag that a command sets. -/
def PeerLabel.command? : PeerLabel → Option Bool
  | .command .pause _ => some true
  | .command .resume _ => some false
  | _ => none

/-- The arrival of the first message, as far as the flags are concerned. -/
def arrival (label : MirrorLabel Bool) :
    List Letter → Option (MirrorLabel Bool)
  | letter :: _ => (letter.flag?).map fun _ => label
  | [] => none

/-- What a step does to the flags. -/
def PairLabel.mirror (pair : PeerPair) :
    PairLabel → Option (MirrorLabel Bool)
  | .left label => (label.command?).map .writeLeft
  | .right label => (label.command?).map .writeRight
  | .arriveLeft _ => arrival .arriveLeft pair.right.outbox
  | .arriveRight _ => arrival .arriveRight pair.left.outbox

/-- Whether the last `Pause` or `Resume` command was undisputed. -/
def noteCommand (pair : PeerPair) (label : PairLabel) (_ : PeerPair)
    (undisputed : Bool) : Bool :=
  match label.mirror pair with
  | some mirrored => noteWrite pair.mirror mirrored undisputed
  | none => undisputed

/-- The two peers and the history variable. -/
def pausingStep :
    PeerPair × Bool → PairLabel → Option (PeerPair × Bool) :=
  withHistory pairStep noteCommand

/-- No `PAUSE` and no `RESUME` is under way. -/
def PeerPair.Settled (pair : PeerPair) : Prop :=
  pair.left.flags = [] ∧ pair.right.flags = []

/-! ## Steps of one peer -/

/-- The part of a peer that the flags depend on. -/
structure PauseSide where
  paused : Bool
  flags : List Bool

def Peer.pauseSide (peer : Peer) : PauseSide where
  paused := peer.paused
  flags := peer.flags

/-- What a step does to it. -/
def PauseSide.after (side : PauseSide) : PeerLabel → PauseSide
  | .command .pause _ => ⟨true, side.flags ++ [true]⟩
  | .command .resume _ => ⟨false, side.flags ++ [false]⟩
  | .control letter _ => ⟨(letter.flag?).getD side.paused, side.flags⟩
  | _ => side

theorem send_flags
    (peer : Peer) (message : ControlMessage) (offer : Nat) :
    (peer.send message offer).flags =
      peer.flags ++ (Letter.flag? ⟨message, offer⟩).toList := by
  rw [Peer.flags, Peer.send, List.filterMap_append]
  cases flag : Letter.flag? ⟨message, offer⟩ <;> simp [Peer.flags, flag]

/-- A message that carries no flag. -/
theorem send_pauseSide
    (peer : Peer) {message : ControlMessage} {offer : Nat}
    (noFlag : Letter.flag? ⟨message, offer⟩ = none) :
    (peer.send message offer).pauseSide = peer.pauseSide := by
  have flags := send_flags peer message offer
  rw [noFlag, Option.toList_none, List.append_nil] at flags
  rw [Peer.pauseSide, flags]
  rfl

/-- No message of the negotiation carries a flag. -/
theorem pauseSide_unnegotiated : Unnegotiated Peer.pauseSide where
  coordinator _ _ := rfl
  triggerSend _ _ := rfl
  triggerRecv _ _ := rfl
  touch _ _ _ := rfl
  send peer message offer negotiates := by
    apply send_pauseSide
    cases message <;> first | rfl | cases negotiates
  emit _ _ _ := rfl

theorem handleControl_pauseSide
    (peer : Peer) (letter : Letter) (faults : Faults) :
    (peer.handleControl letter faults).pauseSide =
      ⟨(letter.flag?).getD peer.paused, peer.flags⟩ := by
  by_cases negotiates : letter.message.negotiates = true
  · have noFlag : letter.flag? = none := by
      obtain ⟨message, offer⟩ := letter
      cases message <;> first | rfl | cases negotiates
    rw [noFlag]
    exact pauseSide_unnegotiated.dispatch peer negotiates faults
  · obtain ⟨message, offer⟩ := letter
    cases message <;> first | rfl | exact absurd rfl negotiates

theorem handleCommand_pauseSide
    (peer : Peer) (command : PeerCommand) (faults : Faults) :
    (peer.handleCommand command faults).pauseSide =
      peer.pauseSide.after (.command command faults) := by
  by_cases negotiates : command.negotiates = true
  · have same :
        peer.pauseSide.after (.command command faults) = peer.pauseSide := by
      cases command <;> first | rfl | cases negotiates
    rw [same]
    exact pauseSide_unnegotiated.handleCommand peer negotiates faults
  · cases command with
    | rejectFile => exact send_pauseSide peer.clearOffer rfl
    | pause =>
        have flags := send_flags (peer.setPaused true) .pause 0
        exact congrArg (PauseSide.mk true) flags
    | resume =>
        have flags := send_flags (peer.setPaused false) .resume 0
        exact congrArg (PauseSide.mk false) flags
    | disconnect => rfl
    | _ => exact absurd rfl negotiates

theorem sendStep_pauseSide
    {peer next : Peer} {label : SendLabel}
    (stepped : peer.sendStep label = some next) :
    next.pauseSide = peer.pauseSide := by
  cases sendStep_effect stepped with
  | finished stream inlineHash rehashFails => exact send_pauseSide _ rfl
  | _ => rfl

theorem recvStep_pauseSide
    {peer next : Peer} {label : RecvLabel}
    (stepped : peer.recvStep label = some next) :
    next.pauseSide = peer.pauseSide := by
  have failed (before : Peer) (status : FileTransferStatus)
      (same : before.pauseSide = peer.pauseSide) :
      (before.failReceive status).pauseSide = peer.pauseSide :=
    (@send_pauseSide { before with receiver := .stopped }
      .receivedFileFailed 0 rfl).trans same
  have completed (before : Peer) (verifying : Verifying) (hash : String)
      (same : before.pauseSide = peer.pauseSide) :
      (before.completeReceive verifying hash).pauseSide = peer.pauseSide :=
    (@send_pauseSide
      { before with
        receiver := .idle
        receipts := before.receipts ++ [⟨verifying, hash⟩] }
      .receivedFileOk verifying.job.offer rfl).trans same
  cases recvStep_effect stepped with
  | refused job files => exact failed _ _ rfl
  | seekFailed job files opened => exact failed _ _ rfl
  | gaveUp receiving => exact failed _ _ rfl
  | rejected verifying rest => exact failed _ _ rfl
  | completed verifying hash rest => exact completed _ _ _ rfl
  | committed verifying hash rest renamed => exact completed _ _ _ rfl
  | _ => rfl

theorem peerStep_pauseSide
    {peer next : Peer} {label : PeerLabel}
    (stepped : peerStep peer label = some next) :
    next.pauseSide = peer.pauseSide.after label := by
  cases label with
  | control letter faults =>
      simp only [peerStep] at stepped
      split at stepped <;> cases stepped
      exact handleControl_pauseSide peer letter faults
  | command command faults =>
      simp only [peerStep] at stepped
      split at stepped <;> cases stepped
      exact handleCommand_pauseSide peer command faults
  | loopEnds reason =>
      simp only [peerStep] at stepped
      split at stepped <;> cases stepped
      cases reason <;> rfl
  | send sendLabel => exact sendStep_pauseSide stepped
  | recv recvLabel => exact recvStep_pauseSide stepped

/-! ## The flags are a mirrored value -/

theorem after_of_command
    {label : PeerLabel} {flag : Bool} (isCommand : label.command? = some flag)
    (side : PauseSide) :
    side.after label = ⟨flag, side.flags ++ [flag]⟩ := by
  cases label with
  | command command faults =>
      cases command with
      | pause =>
          cases isCommand
          rfl
      | resume =>
          cases isCommand
          rfl
      | _ => cases isCommand
  | _ => cases isCommand

theorem after_of_no_command
    {label : PeerLabel} (noCommand : label.command? = none)
    (notControl : label.isControl = false) (side : PauseSide) :
    side.after label = side := by
  cases label with
  | control letter faults => cases notControl
  | command command faults =>
      cases command with
      | pause => cases noCommand
      | resume => cases noCommand
      | _ => rfl
  | _ => rfl

/-- The first message of an outbox carries a flag or does not count. -/
theorem flags_cons
    {peer : Peer} {letter : Letter} {rest : List Letter}
    (isOutbox : peer.outbox = letter :: rest) :
    peer.flags = (letter.flag?).toList ++ (peer.post rest).flags := by
  rw [Peer.flags, isOutbox, List.filterMap_cons]
  cases letter.flag? with
  | none => rfl
  | some flag => rfl

/-- A step of the pair is one of the mirrored value, or it leaves the flags
and the messages that carry them alone. -/
structure FollowsMirror
    (pair next : PeerPair) (label : PairLabel) : Prop where
  moves :
    ∀ mirrored, label.mirror pair = some mirrored →
      mirrorStep pair.mirror mirrored = some next.mirror
  stays : label.mirror pair = none → next.mirror = pair.mirror

theorem left_followsMirror
    {pair : PeerPair} {label : PeerLabel} {left : Peer}
    (notControl : label.isControl = false)
    (stepped : peerStep pair.left label = some left) :
    FollowsMirror pair { pair with left := left } (.left label) := by
  have side := peerStep_pauseSide stepped
  constructor
  · intro mirrored isMirrored
    obtain ⟨flag, isCommand, rfl⟩ := Option.map_eq_some_iff.mp isMirrored
    rw [after_of_command isCommand] at side
    have isPaused := congrArg PauseSide.paused side
    have isFlags := congrArg PauseSide.flags side
    change left.paused = flag at isPaused
    change left.flags = pair.left.flags ++ [flag] at isFlags
    simp only [mirrorStep, PeerPair.mirror, isPaused, isFlags]
  · intro noMirror
    rw [after_of_no_command (Option.map_eq_none_iff.mp noMirror)
      notControl] at side
    have isPaused := congrArg PauseSide.paused side
    have isFlags := congrArg PauseSide.flags side
    change left.paused = pair.left.paused at isPaused
    change left.flags = pair.left.flags at isFlags
    simp only [PeerPair.mirror, isPaused, isFlags]

theorem right_followsMirror
    {pair : PeerPair} {label : PeerLabel} {right : Peer}
    (notControl : label.isControl = false)
    (stepped : peerStep pair.right label = some right) :
    FollowsMirror pair { pair with right := right } (.right label) := by
  have side := peerStep_pauseSide stepped
  constructor
  · intro mirrored isMirrored
    obtain ⟨flag, isCommand, rfl⟩ := Option.map_eq_some_iff.mp isMirrored
    rw [after_of_command isCommand] at side
    have isPaused := congrArg PauseSide.paused side
    have isFlags := congrArg PauseSide.flags side
    change right.paused = flag at isPaused
    change right.flags = pair.right.flags ++ [flag] at isFlags
    simp only [mirrorStep, PeerPair.mirror, isPaused, isFlags]
  · intro noMirror
    rw [after_of_no_command (Option.map_eq_none_iff.mp noMirror)
      notControl] at side
    have isPaused := congrArg PauseSide.paused side
    have isFlags := congrArg PauseSide.flags side
    change right.paused = pair.right.paused at isPaused
    change right.flags = pair.right.flags at isFlags
    simp only [PeerPair.mirror, isPaused, isFlags]

theorem arriveLeft_followsMirror
    {pair : PeerPair} {faults : Faults} {letter : Letter}
    {rest : List Letter} {left : Peer}
    (isOutbox : pair.right.outbox = letter :: rest)
    (stepped : peerStep pair.left (.control letter faults) = some left) :
    FollowsMirror pair ⟨left, pair.right.post rest⟩
      (.arriveLeft faults) := by
  have side := peerStep_pauseSide stepped
  have isPaused := congrArg PauseSide.paused side
  have isFlags := congrArg PauseSide.flags side
  change left.paused = (letter.flag?).getD pair.left.paused at isPaused
  change left.flags = pair.left.flags at isFlags
  have isComing := flags_cons isOutbox
  constructor
  · intro mirrored isMirrored
    rw [PairLabel.mirror, isOutbox, arrival] at isMirrored
    obtain ⟨flag, isFlag, rfl⟩ := Option.map_eq_some_iff.mp isMirrored
    rw [isFlag] at isPaused isComing
    simp only [mirrorStep, PeerPair.mirror, isPaused, isFlags, isComing]
    rfl
  · intro noMirror
    rw [PairLabel.mirror, isOutbox, arrival,
      Option.map_eq_none_iff] at noMirror
    rw [noMirror] at isPaused isComing
    simp only [PeerPair.mirror, isPaused, isFlags, isComing]
    rfl

theorem arriveRight_followsMirror
    {pair : PeerPair} {faults : Faults} {letter : Letter}
    {rest : List Letter} {right : Peer}
    (isOutbox : pair.left.outbox = letter :: rest)
    (stepped : peerStep pair.right (.control letter faults) = some right) :
    FollowsMirror pair ⟨pair.left.post rest, right⟩
      (.arriveRight faults) := by
  have side := peerStep_pauseSide stepped
  have isPaused := congrArg PauseSide.paused side
  have isFlags := congrArg PauseSide.flags side
  change right.paused = (letter.flag?).getD pair.right.paused at isPaused
  change right.flags = pair.right.flags at isFlags
  have isComing := flags_cons isOutbox
  constructor
  · intro mirrored isMirrored
    rw [PairLabel.mirror, isOutbox, arrival] at isMirrored
    obtain ⟨flag, isFlag, rfl⟩ := Option.map_eq_some_iff.mp isMirrored
    rw [isFlag] at isPaused isComing
    simp only [mirrorStep, PeerPair.mirror, isPaused, isFlags, isComing]
    rfl
  · intro noMirror
    rw [PairLabel.mirror, isOutbox, arrival,
      Option.map_eq_none_iff] at noMirror
    rw [noMirror] at isPaused isComing
    simp only [PeerPair.mirror, isPaused, isFlags, isComing]
    rfl

/-- Every step of the pair follows the mirrored value. -/
theorem pairStep_followsMirror
    {pair next : PeerPair} {label : PairLabel}
    (stepped : pairStep pair label = some next) :
    FollowsMirror pair next label := by
  cases label with
  | left label =>
      simp only [pairStep] at stepped
      split at stepped
      · cases stepped
      · rename_i notControl
        obtain ⟨left, ran, rfl⟩ := Option.map_eq_some_iff.mp stepped
        exact
          left_followsMirror (Bool.eq_false_of_not_eq_true notControl) ran
  | right label =>
      simp only [pairStep] at stepped
      split at stepped
      · cases stepped
      · rename_i notControl
        obtain ⟨right, ran, rfl⟩ := Option.map_eq_some_iff.mp stepped
        exact
          right_followsMirror (Bool.eq_false_of_not_eq_true notControl) ran
  | arriveLeft faults =>
      simp only [pairStep] at stepped
      split at stepped
      · rename_i isOutbox
        obtain ⟨left, ran, rfl⟩ := Option.map_eq_some_iff.mp stepped
        exact arriveLeft_followsMirror isOutbox ran
      · cases stepped
  | arriveRight faults =>
      simp only [pairStep] at stepped
      split at stepped
      · rename_i isOutbox
        obtain ⟨right, ran, rfl⟩ := Option.map_eq_some_iff.mp stepped
        exact arriveRight_followsMirror isOutbox ran
      · cases stepped

/-- A step keeps what is known about the flags that are to come. -/
theorem pausing_step
    {pair next : PeerPair} {label : PairLabel} {undisputed : Bool}
    (sound : MirrorSound pair.mirror undisputed)
    (stepped : pairStep pair label = some next) :
    MirrorSound next.mirror (noteCommand pair label next undisputed) := by
  have follows := pairStep_followsMirror stepped
  rw [noteCommand]
  cases isMirrored : label.mirror pair with
  | some mirrored =>
      exact mirrorSound_step sound (follows.moves mirrored isMirrored)
  | none =>
      rw [follows.stays isMirrored]
      exact sound

/-- Once every message has arrived, the pause flags of two peers agree exactly
if the last command did not cross a different one. -/
theorem pause_flags_agree_exactly
    (leftFiles rightFiles : Files) (labels : List PairLabel)
    (pair : PeerPair) (undisputed : Bool)
    (run :
      Run pausingStep anyStep (.initial leftFiles rightFiles, true) labels
        (pair, undisputed))
    (settled : pair.Settled) :
    pair.left.paused = pair.right.paused ↔ undisputed = true := by
  have sound :=
    run.preserves
      (fun watched => MirrorSound watched.1.mirror watched.2)
      (fun source label target sound _ stepped => by
        obtain ⟨stepped, noted⟩ := withHistory_eq_some.mp stepped
        rw [noted]
        exact pausing_step sound stepped)
      (mirrorSound_start false)
  exact sound.settled ⟨settled.2, settled.1⟩

/-- No files at all. -/
def noFiles : Files := fun _ => none

/-- What decides about the flags of a pair. -/
def PeerPair.observed (watched : PeerPair × Bool) :
    Mirror Bool × Bool :=
  (watched.1.mirror, watched.2)

theorem pause_reaches_the_other_side :
    ∃ pair,
      Run pausingStep anyStep (.initial noFiles noFiles, true)
          [.left (.command .pause .none), .arriveRight .none]
          (pair, true) ∧
        pair.Settled ∧ pair.left.paused = true ∧
          pair.left.paused = pair.right.paused := by
  have ran :
      (replay pausingStep (.initial noFiles noFiles, true)
          [.left (.command .pause .none), .arriveRight .none]).map
          PeerPair.observed =
        some (⟨true, true, [], []⟩, true) := by
    decide
  obtain ⟨⟨pair, undisputed⟩, reached, same⟩ :=
    Option.map_eq_some_iff.mp ran
  injection same with isMirror isUndisputed
  cases isUndisputed
  injection isMirror with isLeft isRight toLeft toRight
  have run := run_of_replay reached
  exact
    ⟨pair, run, ⟨toRight, toLeft⟩, isLeft,
      (pause_flags_agree_exactly noFiles noFiles
          [.left (.command .pause .none), .arriveRight .none] pair true
          run ⟨toRight, toLeft⟩).mpr rfl⟩

/-- A pause and a resume that cross leave one side paused. -/
theorem crossing_pause_and_resume :
    ∃ watched,
      Run pausingStep anyStep (.initial noFiles noFiles, true)
          [.left (.command .pause .none), .right (.command .resume .none),
            .arriveLeft .none, .arriveRight .none]
          watched ∧
        watched.1.Settled ∧
          watched.1.left.paused = false ∧
            watched.1.right.paused = true := by
  have ran :
      (replay pausingStep (.initial noFiles noFiles, true)
          [.left (.command .pause .none), .right (.command .resume .none),
            .arriveLeft .none, .arriveRight .none]).map
          PeerPair.observed =
        some (⟨false, true, [], []⟩, false) := by
    decide
  obtain ⟨watched, reached, same⟩ := Option.map_eq_some_iff.mp ran
  injection same with isMirror _
  injection isMirror with isLeft isRight toLeft toRight
  exact
    ⟨watched, run_of_replay reached, ⟨toRight, toLeft⟩, isLeft, isRight⟩

end Quiczilla
