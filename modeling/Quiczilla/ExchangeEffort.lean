import Quiczilla.ExchangeDigests
import Quiczilla.Foundation.Potential
import Quiczilla.PeerEffort

/-!
# An exchange does not go round in circles

The effort of the two peers goes down with each step that is neither a command
nor a progress report, whatever fails on the way.
-/

namespace Quiczilla

open Foundation

/-- The offer that has not been made. -/
def Coordinator.startEffort
    (sourceSize : Nat) (coordinator : Coordinator) : Nat :=
  match coordinator.announced with
  | [] => sendEffort sourceSize + receiveEffort sourceSize + 6
  | _ :: _ => 0

def Link.effort (sourceSize : Nat) (link : Link) : Nat :=
  link.left.coordinator.startEffort sourceSize +
    link.left.effort sourceSize + link.right.effort sourceSize

/-- The steps that get on with the exchange. -/
def LinkLabel.works : LinkLabel → Bool
  | .leftControl _ => true
  | .leftSend label => label ≠ .report
  | .rightControl _ => true
  | .rightRecv label => label ≠ .report
  | _ => false

def LinkLabel.commands : LinkLabel → Bool
  | .leftCommand _ _ => true
  | .rightCommand _ _ => true
  | _ => false

theorem withOutbox_effort
    {sourceSize : Nat} {peer : Peer} {letter : Letter}
    {rest : List Letter} (outbox : peer.outbox = letter :: rest) :
    (peer.withOutbox rest).effort sourceSize +
        letter.message.effort sourceSize =
      peer.effort sourceSize := by
  simp only [Peer.effort, Peer.withOutbox, outbox, List.map_cons,
    List.sum_cons]
  omega

theorem startEffort_of_announced
    {sourceSize : Nat} {before after : Coordinator}
    (same : after.announced = before.announced) :
    after.startEffort sourceSize = before.startEffort sourceSize := by
  rw [Coordinator.startEffort, same, ← Coordinator.startEffort]

section Steps

variable {exchange : Exchange} {leftFiles : Files}
  {source : List UInt8} {link next : Link} {label : LinkLabel}

/-- Every send is for the offer. -/
theorem Exchange.Underway.hashes_step
    (underway : exchange.Underway leftFiles link)
    (isSource :
      leftFiles (components exchange.offer.path) = some (.file source))
    (hashes : link.left.Hashes exchange source)
    (stepped : linkStep link label = some next) :
    next.left.Hashes exchange source := by
  have sends := underway.bound.roles.sends
  have once := underway.once
  have isLeft :
      link.left.files (components exchange.offer.path) =
        some (.file source) := by
    rw [underway.sources]
    exact isSource
  cases linkStep_effect stepped with
  | leftCommand command faults left isSend taken =>
      have effect := commandStep_offering isSend taken
      exact hashes.loop once rfl taken effect
  | leftControl faults letter rest left arrived taken =>
      have effect := controlStep_offering sends taken
      exact hashes.loop once rfl taken effect
  | leftEnds reason left taken =>
      have effect := endStep_offering .none taken
      exact hashes.loop once rfl taken effect
  | leftSend label left taken => exact hashes.send isLeft taken
  | _ => exact ⟨hashes.queued, hashes.opening, hashes.streaming⟩

/-- A letter is taken. -/
theorem peerStep_control_effort
    {sourceSize : Nat} {peer after : Peer} {letter : Letter}
    {faults : Faults}
    (taken : peerStep peer (.control letter faults) = some after) :
    after.effort sourceSize <
      peer.effort sourceSize + letter.message.effort sourceSize := by
  rw [peerStep_control taken]
  exact handleControl_effort sourceSize peer letter faults

theorem endLoop_effort
    (sourceSize : Nat) (peer : Peer) (reason : Option String) :
    (peer.endLoop reason).effort sourceSize = peer.effort sourceSize := by
  cases reason <;> rfl

/-- The offer is made. -/
theorem sendFile_effort
    {path : String} {checksum resume : Bool} {faults : Faults}
    {left : Peer}
    (noneAnnounced : link.left.coordinator.announced = [])
    (isLength :
      link.left.files.length? (components path) = some source.length)
    (taken :
      peerStep link.left
          (.command (.sendFile path checksum resume) faults) =
        some left) :
    left.coordinator.startEffort source.length + left.effort source.length ≤
      link.left.coordinator.startEffort source.length +
        link.left.effort source.length := by
  have starts :
      link.left.coordinator.startEffort source.length =
        sendEffort source.length + receiveEffort source.length + 6 := by
    rw [Coordinator.startEffort, noneAnnounced]
  have started :
      Coordinator.startEffort source.length
          (link.left.announce ⟨path, checksum, resume⟩
            source.length).coordinator =
        0 := by
    rw [Coordinator.startEffort]
    simp [Peer.announce, Peer.send, Peer.emit, noneAnnounced]
  rw [peerStep_command taken]
  simp only [Peer.handleCommand, Peer.handleSendFile, isLength]
  split
  · exact Nat.le_refl _
  · rw [announce_effort, started, starts]
    omega

/-- Nothing but `SendFile` changes what has been announced. -/
theorem startEffort_loop
    {peerLabel : PeerLabel} {left : Peer}
    (sends : link.left.OnlySends)
    (noAccept :
      ∀ command faults, peerLabel = .command command faults →
        command.sends = true)
    (noSend :
      ∀ path checksum resume faults,
        peerLabel ≠ .command (.sendFile path checksum resume) faults)
    (isLoop : peerLabel.isLoop = true)
    (taken : peerStep link.left peerLabel = some left) :
    left.coordinator.startEffort source.length =
      link.left.coordinator.startEffort source.length := by
  apply startEffort_of_announced
  rcases loopStep_announced sends noAccept isLoop taken with
    same | ⟨pending, faults, isCommand, -⟩
  · exact same
  · exact absurd isCommand (noSend _ _ _ faults)

theorem startEffort_unasked
    {peerLabel : PeerLabel} {left : Peer}
    (sends : link.left.OnlySends)
    (unasked : ∀ command faults, peerLabel ≠ .command command faults)
    (isLoop : peerLabel.isLoop = true)
    (taken : peerStep link.left peerLabel = some left) :
    left.coordinator.startEffort source.length =
      link.left.coordinator.startEffort source.length :=
  startEffort_loop sends
    (fun command faults isCommand =>
      absurd isCommand (unasked command faults))
    (fun _ _ _ faults => unasked _ faults) isLoop taken

/-- A command brings at most six steps with it, and every other step but a
report is paid for. -/
theorem linkStep_effort
    (underway : exchange.Underway leftFiles link)
    (isSource :
      leftFiles (components exchange.offer.path) = some (.file source))
    (hashes : link.left.Hashes exchange source)
    (asked : exchange.Asks link label)
    (stepped : linkStep link label = some next) :
    next.effort source.length + label.works.toNat ≤
      link.effort source.length + 6 * label.commands.toNat := by
  have sends := underway.bound.roles.sends
  have isLeft :
      link.left.files (components exchange.offer.path) =
        some (.file source) := by
    rw [underway.sources]
    exact isSource
  have tasks {recvLabel : RecvLabel} {left right : Peer}
      (sameStart :
        left.coordinator.startEffort source.length =
          link.left.coordinator.startEffort source.length)
      (same : left.effort source.length = link.left.effort source.length)
      (taken : link.right.recvStep recvLabel = some right) :
      Link.effort source.length ⟨left, right⟩ +
          (LinkLabel.rightRecv recvLabel).works.toNat ≤
        link.effort source.length := by
    have paid := @recvStep_pays source.length _ _ _ taken
    simp only [Link.effort, LinkLabel.works, sameStart, same]
    omega
  cases linkStep_effect stepped with
  | leftCommand command faults left isSend taken =>
      simp only [Link.effort, LinkLabel.works, LinkLabel.commands,
        Bool.toNat_true, Bool.toNat_false]
      by_cases isStart :
          ∃ path checksum resume, command = .sendFile path checksum resume
      · obtain ⟨path, checksum, resume, rfl⟩ := isStart
        obtain ⟨isOffer, noneAnnounced⟩ := asked
        rw [isOffer] at isLeft
        have started :=
          sendFile_effort noneAnnounced (FileStore.length?_of_file isLeft)
            taken
        omega
      · have noSend (path : String) (checksum resume : Bool) :
            command ≠ .sendFile path checksum resume :=
          fun isCommand => isStart ⟨path, checksum, resume, isCommand⟩
        have sameStart :=
          @startEffort_loop source link _ left sends
            (fun _ _ isCommand => by
              cases isCommand
              exact isSend)
            (fun _ _ _ _ isCommand => by
              cases isCommand
              exact noSend _ _ _ rfl)
            rfl taken
        have handled :=
          handleCommand_effort source.length link.left faults noSend
        rw [← peerStep_command taken] at handled
        omega
  | leftControl faults letter rest left arrived taken =>
      have handled := @peerStep_control_effort source.length _ _ _ _ taken
      have emptied := @withOutbox_effort source.length _ _ _ arrived
      have sameStart :=
        @startEffort_unasked source link _ left sends
          (fun _ _ isCommand => by cases isCommand) rfl taken
      simp only [Link.effort, LinkLabel.works, LinkLabel.commands,
        Bool.toNat_true, Bool.toNat_false]
      omega
  | leftEnds reason left taken =>
      have sameStart :=
        @startEffort_unasked source link _ left sends
          (fun _ _ isCommand => by cases isCommand) rfl taken
      have same :
          left.effort source.length = link.left.effort source.length := by
        rw [peerStep_ends taken, endLoop_effort]
      simp only [Link.effort, LinkLabel.works, LinkLabel.commands,
        Bool.toNat_false]
      omega
  | leftSend sendLabel left taken =>
      have sameStart :
          left.coordinator.startEffort source.length =
            link.left.coordinator.startEffort source.length :=
        startEffort_of_announced
          (congrArg Offering.announced (sendStep_offering taken))
      have sized (stream : SendStream)
          (streaming : link.left.sender = .streaming stream) :
          (link.left.sourceContent stream.job).length ≤
            source.length := by
        have isSent := (hashes.streaming stream streaming).sends
        rw [Peer.sourceContent, sourceContent_of_file isSent isLeft]
        exact Nat.le_refl _
      have paid := sendStep_pays sized taken
      simp only [Link.effort, LinkLabel.works, LinkLabel.commands,
        Bool.toNat_false]
      omega
  | rightCommand command faults right receives taken =>
      have noSend (path : String) (checksum resume : Bool) :
          command ≠ .sendFile path checksum resume := by
        intro isSend
        rw [isSend] at receives
        cases receives
      have handled :=
        handleCommand_effort source.length link.right faults noSend
      rw [← peerStep_command taken] at handled
      simp only [Link.effort, LinkLabel.works, LinkLabel.commands,
        Bool.toNat_true, Bool.toNat_false]
      omega
  | rightControl faults letter rest right arrived taken =>
      have handled := @peerStep_control_effort source.length _ _ _ _ taken
      have emptied := @withOutbox_effort source.length _ _ _ arrived
      have sameStart :
          (link.left.withOutbox rest).coordinator.startEffort
              source.length =
            link.left.coordinator.startEffort source.length := rfl
      simp only [Link.effort, LinkLabel.works, LinkLabel.commands,
        Bool.toNat_true, Bool.toNat_false]
      omega
  | rightEnds reason right taken =>
      rw [peerStep_ends taken]
      simp only [Link.effort, endLoop_effort, LinkLabel.works,
        LinkLabel.commands, Bool.toNat_false]
      omega
  | received chunk rest right isFront taken => exact tasks rfl rfl taken
  | rightRecv recvLabel right notReceive taken => exact tasks rfl rfl taken

end Steps

/-- In every run of one exchange the steps that get on with it are bounded by
the length of the source and the number of commands, whatever fails and however
the two sides interleave. -/
theorem exchange_work_bounded
    {exchange : Exchange} {leftFiles rightFiles : Files}
    {source : List UInt8} {labels : List LinkLabel} {link : Link}
    (isSource :
      leftFiles (components exchange.offer.path) = some (.file source))
    (run :
      Run linkStep exchange.Asks (.initial leftFiles rightFiles) labels
        link) :
    labels.countP LinkLabel.works ≤
      6 * source.length + 19 + 6 * labels.countP LinkLabel.commands := by
  have bounded :=
    run.countP_le
      (fun link =>
        exchange.Underway leftFiles link ∧ link.left.Hashes exchange source)
      (Link.effort source.length) LinkLabel.works LinkLabel.commands 6
      (fun _ _ _ holds asked stepped =>
        ⟨holds.1.step asked stepped,
          holds.1.hashes_step isSource holds.2 stepped⟩)
      (fun _ _ _ holds asked stepped =>
        linkStep_effort holds.1 isSource holds.2 asked stepped)
      ⟨Exchange.Underway.initial exchange leftFiles rightFiles,
        hashes_initial exchange source leftFiles⟩
  have starts :
      (Link.initial leftFiles rightFiles).effort source.length =
        6 * source.length + 19 := by
    have nothing (files : Files) :
        (Peer.initial files).effort source.length = 0 := by
      simp [Peer.effort, Peer.initial, Coordinator.offerEffort,
        Coordinator.resumeEffort, Coordinator.initial, SendPhase.effort,
        RecvPhase.effort]
    simp only [Link.effort, Link.initial, nothing, Coordinator.startEffort]
    simp only [Peer.initial, Coordinator.initial, sendEffort,
      receiveEffort]
    omega
  omega

theorem exchange_work_bounded_one_byte :
    ∃ link : Link,
      .transferComplete .completed ∈ link.left.events ∧
        oneByteExchange.countP LinkLabel.works ≤
          6 * [1].length + 19 +
            6 * oneByteExchange.countP LinkLabel.commands := by
  have ran :
      (guardedReplay linkStep
          (Exchange.Asks ⟨⟨"a", true, true⟩, ⟨"in", true, true⟩⟩)
          (.initial twoSources fun _ => none) oneByteExchange).map
          (fun link =>
            decide (.transferComplete .completed ∈ link.left.events)) =
        some true := by
    decide +kernel
  obtain ⟨link, reached, isCompleted⟩ := Option.map_eq_some_iff.mp ran
  exact
    ⟨link, of_decide_eq_true isCompleted,
      @exchange_work_bounded ⟨⟨"a", true, true⟩, ⟨"in", true, true⟩⟩ _ _
        [1] _ _ (if_pos rfl) (run_of_guardedReplay reached)⟩

end Quiczilla
