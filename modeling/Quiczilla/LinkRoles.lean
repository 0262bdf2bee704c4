import Quiczilla.Link
import Quiczilla.OfferSlots
import Quiczilla.SoleReceive

/-!
# The two roles

What the coordination loop of either side contributes to the handshake.  The
left peer offers: it never accepts and never waits to resume a receive.  The
right peer answers: it never has an offer of its own.
-/

namespace Quiczilla

open Foundation

def Letter.notice? (letter : Letter) : Option Notice :=
  match letter.message with
  | .metadata name size _ _ => some (.offer letter.offer name size)
  | .resumeOk => some .resumeOk
  | .restartFromZero => some (.restart letter.offer)
  | _ => none

def Letter.answer? (letter : Letter) : Option Answer :=
  match letter.message with
  | .ready => some (.ready letter.offer)
  | .resumeReady offset prefixHash =>
      some (.resumeReady letter.offer offset prefixHash)
  | _ => none

def Peer.notices (peer : Peer) : List Notice :=
  peer.outbox.filterMap Letter.notice?

def Peer.answers (peer : Peer) : List Answer :=
  peer.outbox.filterMap Letter.answer?

theorem send_notices
    (peer : Peer) (message : ControlMessage) (offer : Nat) :
    (peer.send message offer).notices =
      peer.notices ++ (Letter.notice? ⟨message, offer⟩).toList := by
  rw [Peer.notices, Peer.send, List.filterMap_append]
  cases notice : Letter.notice? ⟨message, offer⟩ <;>
    simp [Peer.notices, notice]

theorem send_answers
    (peer : Peer) (message : ControlMessage) (offer : Nat) :
    (peer.send message offer).answers =
      peer.answers ++ (Letter.answer? ⟨message, offer⟩).toList := by
  rw [Peer.answers, Peer.send, List.filterMap_append]
  cases answer : Letter.answer? ⟨message, offer⟩ <;>
    simp [Peer.answers, answer]

/-! ## The offering side -/

/-- The part of a peer that speaks for its own offers. -/
structure Offering where
  announced : List String
  pending : Option PendingSend
  notices : List Notice
  sendQueue : List SendJob

def Peer.offering (peer : Peer) : Offering where
  announced := peer.coordinator.announced
  pending := peer.coordinator.pendingSendPath
  notices := peer.notices
  sendQueue := peer.sendQueue

/-- The name under which a path is offered. -/
def offeredName (path : String) : String :=
  (fileName (components path)).getD ""

def SendJob.of (pending : PendingSend) (offset offer : Nat) : SendJob where
  path := pending.path
  checksum := pending.checksum
  resumeOffset := offset
  offer := offer

/-- Everything that a step of the loop can do to the offering part; `answer`
is the answer that the step takes. -/
inductive OfferingEffect
    (peer : Peer) (answer : Option Answer) (faults : Faults)
    (next : Offering) : Prop
  | quiet :
      (∀ other, answer = some other →
        peer.coordinator.pendingSendPath = none) →
      next = peer.offering →
      OfferingEffect peer answer faults next
  | announced (pending : PendingSend) (size : Nat) :
      answer = none →
      peer.files.length? (components pending.path) = some size →
      next =
        { peer.offering with
          announced := peer.coordinator.announced ++ [pending.path]
          pending := some pending
          notices :=
            peer.notices ++
              [.offer peer.coordinator.announced.length
                (offeredName pending.path) size] } →
      OfferingEffect peer answer faults next
  | started (taken : Answer) (pending : PendingSend) :
      answer = some taken →
      peer.coordinator.pendingSendPath = some pending →
      (∀ number offset prefixHash,
        taken = .resumeReady number offset prefixHash → offset = 0) →
      next =
        { peer.offering with
          pending := none
          sendQueue :=
            peer.sendQueue ++ [SendJob.of pending 0 peer.lastOffer] } →
      OfferingEffect peer answer faults next
  | confirmed (number offset : Nat) (prefixHash : Option String)
      (pending : PendingSend) :
      answer = some (.resumeReady number offset prefixHash) →
      peer.coordinator.pendingSendPath = some pending →
      0 < offset →
      peer.fingerprint (components pending.path) faults = prefixHash →
      next =
        { peer.offering with
          pending := none
          notices := peer.notices ++ [.resumeOk]
          sendQueue :=
            peer.sendQueue ++
              [SendJob.of pending offset peer.lastOffer] } →
      OfferingEffect peer answer faults next
  | refuted (number offset : Nat) (prefixHash : Option String)
      (pending : PendingSend) :
      answer = some (.resumeReady number offset prefixHash) →
      peer.coordinator.pendingSendPath = some pending →
      0 < offset →
      peer.fingerprint (components pending.path) faults ≠ prefixHash →
      next =
        { peer.offering with
          pending := some { pending with resume := false }
          notices := peer.notices ++ [.restart peer.lastOffer] } →
      OfferingEffect peer answer faults next

/-- The peer neither accepts offers nor waits to resume a receive. -/
structure Peer.OnlySends (peer : Peer) : Prop where
  noAccept : peer.coordinator.pendingAccept = none
  noResume : peer.coordinator.pendingResumeRecv = none

theorem handleReady_offering
    {peer : Peer} (offer : Nat) (faults : Faults) :
    OfferingEffect peer (Letter.answer? ⟨.ready, offer⟩) faults
      peer.handleReady.offering := by
  unfold Peer.handleReady
  split
  · rename_i pending isPending
    exact
      OfferingEffect.started _ pending rfl isPending nofun rfl
  · rename_i nonePending
    exact OfferingEffect.quiet (fun _ _ => nonePending) rfl

theorem handleResumeReady_offering
    {peer : Peer} (number offset : Nat) (prefixHash : Option String)
    (faults : Faults) :
    OfferingEffect peer
      (Letter.answer? ⟨.resumeReady offset prefixHash, number⟩) faults
      (peer.handleResumeReady offset prefixHash faults).offering := by
  unfold Peer.handleResumeReady
  split
  · rename_i pending isPending
    split
    · rename_i positive
      split
      · rename_i sameHash
        refine
          OfferingEffect.confirmed number offset prefixHash pending rfl
            isPending positive sameHash ?_
        have notices :
            ((peer.send .resumeOk peer.lastOffer).startPending pending
                offset).notices =
              peer.notices ++ [.resumeOk] :=
          send_notices peer .resumeOk peer.lastOffer
        rw [Peer.offering, notices]
        rfl
      · rename_i otherHash
        refine
          OfferingEffect.refuted number offset prefixHash pending rfl
            isPending positive otherHash ?_
        rw [Peer.offering, send_notices]
        rfl
    · rename_i notPositive
      refine OfferingEffect.started _ pending rfl isPending ?_ rfl
      intro otherNumber otherOffset otherHash isResume
      have sameOffset : offset = otherOffset :=
        (Answer.resumeReady.inj isResume).2.1
      rw [← sameOffset]
      exact Nat.eq_zero_of_not_pos notPositive
  · rename_i nonePending
    exact OfferingEffect.quiet (fun _ _ => nonePending) rfl

theorem handleControl_offering
    {peer : Peer} (sends : peer.OnlySends) (letter : Letter)
    (faults : Faults) :
    OfferingEffect peer letter.answer? faults
      (peer.handleControl letter faults).offering := by
  obtain ⟨message, offer⟩ := letter
  cases message with
  | metadata name size resume checksum =>
      refine OfferingEffect.quiet nofun ?_
      change
        (peer.handleMetadata name size resume checksum offer
          faults).offering = peer.offering
      rw [Peer.handleMetadata, sends.noAccept]
      rfl
  | ready => exact handleReady_offering offer faults
  | resumeReady offset prefixHash =>
      exact handleResumeReady_offering offer offset prefixHash faults
  | resumeOk =>
      refine OfferingEffect.quiet nofun ?_
      change peer.handleResumeOk.offering = peer.offering
      rw [Peer.handleResumeOk, sends.noResume]
  | restartFromZero =>
      refine OfferingEffect.quiet nofun ?_
      change (peer.handleRestart faults).offering = peer.offering
      rw [Peer.handleRestart, sends.noResume]
  | _ => exact OfferingEffect.quiet nofun rfl

theorem handleCommand_offering
    (peer : Peer) {command : PeerCommand} (faults : Faults)
    (sends : command.sends = true) :
    OfferingEffect peer none faults
      (peer.handleCommand command faults).offering := by
  have quietly :
      ∀ {next : Peer}, next.notices = peer.notices →
        next.coordinator = peer.coordinator →
          next.sendQueue = peer.sendQueue →
            OfferingEffect peer none faults next.offering := by
    intro next notices coordinator queue
    refine OfferingEffect.quiet nofun ?_
    rw [Peer.offering, notices, coordinator, queue]
    rfl
  cases command with
  | sendFile path checksum resume =>
      simp only [Peer.handleCommand, Peer.handleSendFile]
      split
      · exact quietly rfl rfl rfl
      · split
        · rename_i size measured
          refine
            OfferingEffect.announced ⟨path, checksum, resume⟩ size rfl
              measured ?_
          rw [Peer.offering, Peer.announce, send_notices]
          rfl
        · exact quietly rfl rfl rfl
  | acceptFile saveDir checksum resume => cases sends
  | rejectFile => cases sends
  | pause =>
      refine quietly ?_ rfl rfl
      exact
        (send_notices (peer.setPaused true) .pause 0).trans
          (List.append_nil _)
  | resume =>
      refine quietly ?_ rfl rfl
      exact
        (send_notices (peer.setPaused false) .resume 0).trans
          (List.append_nil _)
  | disconnect => exact quietly rfl rfl rfl

/-! ## The answering side -/

/-- An offer that has been announced, or is held until it is accepted. -/
structure HeldOffer where
  number : Nat
  name : String
  size : Nat
  deriving DecidableEq, Repr

def HeldOffer.notice (offer : HeldOffer) : Notice :=
  .offer offer.number offer.name offer.size

def Peer.held (peer : Peer) : Option HeldOffer :=
  match peer.coordinator.offeredFileName,
      peer.coordinator.offeredFileSize with
  | some name, some size =>
      some ⟨peer.coordinator.offeredNumber, name, size⟩
  | _, _ => none

/-- The part of a peer that answers the offers of the other. -/
structure Answering where
  held : Option HeldOffer
  waiting : Option RecvJob
  answers : List Answer
  recvQueue : List RecvJob
  pending : Option PendingSend

def Peer.answering (peer : Peer) : Answering where
  held := peer.held
  waiting := peer.coordinator.pendingResumeRecv
  answers := peer.answers
  recvQueue := peer.recvQueue
  pending := peer.coordinator.pendingSendPath

/-- The job receives what the offer announces. -/
structure RecvJob.For (job : RecvJob) (offer : HeldOffer) : Prop where
  number : job.offer = offer.number
  size : job.fileSize = offer.size
  destPath :
    ∃ saveDir, job.destPath = destinationPath saveDir offer.name

/-- What accepting an offer does to the answering part. -/
inductive AcceptAnswer
    (peer : Peer) (offer : HeldOffer) (faults : Faults) (next : Peer) :
    Prop
  | ready (job : RecvJob) :
      job.For offer →
      job.resumeOffset = 0 →
      next.answering =
        { peer.answering with
          answers := peer.answers ++ [.ready offer.number]
          recvQueue := peer.recvQueue ++ [job] } →
      AcceptAnswer peer offer faults next
  | resumeReady (job : RecvJob) :
      job.For offer →
      0 < job.resumeOffset →
      job.resumeOffset ≤ offer.size →
      next.answering =
        { peer.answering with
          waiting := some job
          answers :=
            peer.answers ++
              [.resumeReady offer.number job.resumeOffset
                (next.fingerprint job.targetWritePath faults)] } →
      AcceptAnswer peer offer faults next

def AppliedAccept.held
    (applied : AppliedAccept) (number : Nat) : HeldOffer where
  number := number
  name := applied.name
  size := applied.size

theorem job_for
    (applied : AppliedAccept) (offset : Nat) (usePart : Bool)
    (offer : Nat) :
    (applied.job offset usePart offer).For (applied.held offer) where
  number := rfl
  size := rfl
  destPath :=
    ⟨applied.accept.saveDir, applied.job_destPath offset usePart offer⟩

theorem acceptFresh_eq (peer : Peer) (job : RecvJob) :
    (peer.acceptFresh job).answering =
      { peer.answering with
        answers := peer.answers ++ [.ready job.offer]
        recvQueue := peer.recvQueue ++ [job] } := by
  rw [Peer.answering, Peer.acceptFresh, send_answers]
  rfl

theorem acceptFresh_answering
    {peer staged : Peer} {applied : AppliedAccept} (faults : Faults)
    (usePart : Bool)
    (same : staged.answering = peer.answering) :
    AcceptAnswer peer (applied.held peer.coordinator.offeredNumber) faults
      (staged.acceptFresh
        (applied.job 0 usePart peer.coordinator.offeredNumber)) := by
  refine
    AcceptAnswer.ready _
      (job_for applied 0 usePart peer.coordinator.offeredNumber) rfl ?_
  have queue : staged.recvQueue = peer.recvQueue :=
    congrArg Answering.recvQueue same
  have answers : staged.answers = peer.answers :=
    congrArg Answering.answers same
  rw [acceptFresh_eq, same, queue, answers]
  rfl

theorem offerResume_answering
    {peer staged : Peer} {applied : AppliedAccept} {faults : Faults}
    {offset : Nat} {usePart : Bool} {path : UnixPath}
    (same : staged.answering = peer.answering)
    (positive : 0 < offset) (fits : offset ≤ applied.size)
    (isTarget :
      path =
        (applied.job offset usePart
          peer.coordinator.offeredNumber).targetWritePath) :
    AcceptAnswer peer (applied.held peer.coordinator.offeredNumber) faults
      (staged.offerResume
        (applied.job offset usePart peer.coordinator.offeredNumber) path
        faults) := by
  refine
    AcceptAnswer.resumeReady _
      (job_for applied offset usePart peer.coordinator.offeredNumber)
      positive fits ?_
  have answers : staged.answers = peer.answers :=
    congrArg Answering.answers same
  rw [← same, ← answers, Peer.answering, Peer.offerResume, send_answers,
    isTarget]
  rfl

theorem truncateTo_answering
    (peer : Peer) (path : UnixPath) (length : Nat) (faults : Faults) :
    (peer.truncateTo path length faults).answering = peer.answering := by
  unfold Peer.truncateTo
  split
  · rfl
  · split <;> rfl

theorem handleAccept_answering
    (peer : Peer) (applied : AppliedAccept) (faults : Faults) :
    AcceptAnswer peer (applied.held peer.coordinator.offeredNumber) faults
      (peer.handleAccept applied.accept applied.name applied.size
        faults) := by
  have fresh :
      ∀ (partPath : Option UnixPath) (usePart : Bool),
        AcceptAnswer peer (applied.held peer.coordinator.offeredNumber)
          faults
          ((peer.withPartPath partPath).acceptFresh
            (applied.job 0 usePart peer.coordinator.offeredNumber)) :=
    fun _ usePart => acceptFresh_answering faults usePart rfl
  unfold Peer.handleAccept
  simp only
  split
  · rename_i large
    split
    · split
      · split
        · rename_i positive
          refine
            offerResume_answering
              ((truncateTo_answering _ _ _ _).trans rfl) positive
              (alignedOffset_le _ _).2 ?_
          exact
            (job_target_part applied _ peer.coordinator.offeredNumber).symm
        · exact fresh _ true
      · split
        · refine
            offerResume_answering rfl
              (Nat.lt_of_lt_of_le resumeThresholdBytes_pos large)
              (Nat.le_refl _) ?_
          exact
            (job_target_dest applied _ peer.coordinator.offeredNumber).symm
        · exact fresh _ true
    · exact fresh _ true
  · exact fresh _ false

/-- The offer that an accept is for comes with the step or is held. -/
def Peer.Grants
    (peer : Peer) (notice : Option Notice) (offer : HeldOffer) : Prop :=
  notice = some offer.notice ∨ (notice = none ∧ peer.held = some offer)

/-- Everything that a step of the loop can do to the answering part; `notice`
is the notice that the step takes. -/
inductive AnsweringEffect
    (peer : Peer) (notice : Option Notice) (faults : Faults)
    (next : Peer) : Prop
  | quiet :
      (∀ taken, notice = some taken →
        taken.offer? = none ∧
          peer.coordinator.pendingResumeRecv = none) →
      next.answering = peer.answering →
      AnsweringEffect peer notice faults next
  | held (offer : HeldOffer) :
      notice = some offer.notice →
      next.answering = { peer.answering with held := some offer } →
      AnsweringEffect peer notice faults next
  | accepted (offer : HeldOffer) (job : RecvJob) :
      peer.Grants notice offer →
      job.For offer →
      job.resumeOffset = 0 →
      next.answering =
        { peer.answering with
          held := none
          answers := peer.answers ++ [.ready offer.number]
          recvQueue := peer.recvQueue ++ [job] } →
      AnsweringEffect peer notice faults next
  | resumed (offer : HeldOffer) (job : RecvJob) :
      peer.Grants notice offer →
      job.For offer →
      0 < job.resumeOffset →
      job.resumeOffset ≤ offer.size →
      next.answering =
        { peer.answering with
          held := none
          waiting := some job
          answers :=
            peer.answers ++
              [.resumeReady offer.number job.resumeOffset
                (next.fingerprint job.targetWritePath faults)] } →
      AnsweringEffect peer notice faults next
  | withdrawn :
      notice = none →
      next.answering = { peer.answering with held := none } →
      AnsweringEffect peer notice faults next
  | confirmed (job : RecvJob) :
      notice = some .resumeOk →
      peer.coordinator.pendingResumeRecv = some job →
      next.answering =
        { peer.answering with
          waiting := none
          recvQueue := peer.recvQueue ++ [job] } →
      AnsweringEffect peer notice faults next
  | restarted (told : Nat) (job : RecvJob) :
      notice = some (.restart told) →
      peer.coordinator.pendingResumeRecv = some job →
      next.answering =
        { peer.answering with
          waiting := none
          answers := peer.answers ++ [.ready job.offer]
          recvQueue :=
            peer.recvQueue ++ [{ job with resumeOffset := 0 }] } →
      AnsweringEffect peer notice faults next

theorem AcceptAnswer.answering
    {peer cleared next : Peer} {notice : Option Notice}
    {offer : HeldOffer} {faults : Faults}
    (answer : AcceptAnswer cleared offer faults next)
    (grants : peer.Grants notice offer)
    (isCleared : cleared.answering = { peer.answering with held := none }) :
    AnsweringEffect peer notice faults next := by
  have answers : cleared.answers = peer.answers :=
    congrArg Answering.answers isCleared
  have queue : cleared.recvQueue = peer.recvQueue :=
    congrArg Answering.recvQueue isCleared
  cases answer with
  | ready job isFor fromZero isNext =>
      refine AnsweringEffect.accepted offer job grants isFor fromZero ?_
      rw [isNext, isCleared, answers, queue]
  | resumeReady job isFor positive fits isNext =>
      refine
        AnsweringEffect.resumed offer job grants isFor positive fits ?_
      rw [isNext, isCleared, answers]

theorem handleMetadata_answering
    (peer : Peer) (name : String) (size : Nat) (resume checksum : Bool)
    (number : Nat) (faults : Faults) :
    AnsweringEffect peer (some (.offer number name size)) faults
      (peer.handleMetadata name size resume checksum number faults) := by
  unfold Peer.handleMetadata
  split
  · rename_i accept waiting
    exact
      (handleAccept_answering
        (((peer.recordOffer name size resume checksum
          number).setPendingAccept none).clearOffer)
        ⟨accept, name, size⟩ faults).answering (Or.inl rfl) rfl
  · exact AnsweringEffect.held ⟨number, name, size⟩ rfl rfl

theorem handleResumeOk_answering
    (peer : Peer) (faults : Faults) :
    AnsweringEffect peer (some .resumeOk) faults peer.handleResumeOk := by
  unfold Peer.handleResumeOk
  split
  · rename_i job resuming
    exact AnsweringEffect.confirmed job rfl resuming rfl
  · rename_i noneWaiting
    refine AnsweringEffect.quiet ?_ rfl
    intro taken isTaken
    rw [← Option.some.inj isTaken]
    exact ⟨rfl, noneWaiting⟩

theorem handleRestart_answering
    (peer : Peer) (told : Nat) (faults : Faults) :
    AnsweringEffect peer (some (.restart told)) faults
      (peer.handleRestart faults) := by
  unfold Peer.handleRestart
  split
  · rename_i job resuming
    refine AnsweringEffect.restarted told job rfl resuming ?_
    have recreated :
        (peer.clearResume.recreatePart faults).answering =
          peer.clearResume.answering := by
      unfold Peer.recreatePart
      split
      · split
        · rfl
        · split <;> rfl
      · rfl
    have answers :
        (peer.clearResume.recreatePart faults).answers = peer.answers :=
      congrArg Answering.answers recreated
    have queue :
        (peer.clearResume.recreatePart faults).recvQueue =
          peer.recvQueue :=
      congrArg Answering.recvQueue recreated
    rw [acceptFresh_eq, recreated, answers, queue]
    rfl
  · rename_i noneWaiting
    refine AnsweringEffect.quiet ?_ rfl
    intro taken isTaken
    rw [← Option.some.inj isTaken]
    exact ⟨rfl, noneWaiting⟩

theorem handleControl_answering
    {peer : Peer} (receives : peer.coordinator.pendingSendPath = none)
    (letter : Letter) (faults : Faults) :
    AnsweringEffect peer letter.notice? faults
      (peer.handleControl letter faults) := by
  have noted :
      ∀ {notice : Option Notice} {next : Peer} (message : ControlMessage),
        AnsweringEffect peer notice faults next →
          AnsweringEffect peer notice faults (next.noteHandled message) := by
    intro notice next message effect
    have same : (next.noteHandled message).answering = next.answering :=
      rfl
    cases effect with
    | quiet noNotice isNext =>
        exact AnsweringEffect.quiet noNotice (same.trans isNext)
    | held offer isOffer isNext =>
        exact AnsweringEffect.held offer isOffer (same.trans isNext)
    | accepted offer job grants isFor fromZero isNext =>
        exact
          AnsweringEffect.accepted offer job grants isFor fromZero
            (same.trans isNext)
    | resumed offer job grants isFor positive fits isNext =>
        exact
          AnsweringEffect.resumed offer job grants isFor positive fits
            (same.trans isNext)
    | withdrawn noNotice isNext =>
        exact AnsweringEffect.withdrawn noNotice (same.trans isNext)
    | confirmed job isConfirmation resuming isNext =>
        exact
          AnsweringEffect.confirmed job isConfirmation resuming
            (same.trans isNext)
    | restarted told job isRestart resuming isNext =>
        exact
          AnsweringEffect.restarted told job isRestart resuming
            (same.trans isNext)
  obtain ⟨message, number⟩ := letter
  apply noted message
  cases message with
  | metadata name size resume checksum =>
      exact
        handleMetadata_answering peer name size resume checksum number
          faults
  | ready =>
      refine AnsweringEffect.quiet nofun ?_
      change peer.handleReady.answering = peer.answering
      rw [Peer.handleReady, receives]
  | resumeReady offset prefixHash =>
      refine AnsweringEffect.quiet nofun ?_
      change
        (peer.handleResumeReady offset prefixHash faults).answering =
          peer.answering
      rw [Peer.handleResumeReady, receives]
  | resumeOk => exact handleResumeOk_answering peer faults
  | restartFromZero => exact handleRestart_answering peer number faults
  | _ => exact AnsweringEffect.quiet nofun rfl

theorem handleCommand_answering
    (peer : Peer) {command : PeerCommand} (faults : Faults)
    (receives : command.receives = true) :
    AnsweringEffect peer none faults
      (peer.handleCommand command faults) := by
  cases command with
  | sendFile path checksum resume => cases receives
  | acceptFile saveDir checksum resume =>
      rw [Peer.handleCommand, Peer.handleAcceptFile]
      split
      · rename_i name size named sized
        refine
          (handleAccept_answering peer.clearOffer
            ⟨⟨saveDir, checksum, resume⟩, name, size⟩
            faults).answering ?_ rfl
        refine Or.inr ⟨rfl, ?_⟩
        rw [Peer.held, named, sized]
        rfl
      · exact AnsweringEffect.withdrawn rfl rfl
  | rejectFile =>
      refine AnsweringEffect.withdrawn rfl ?_
      change
        (peer.clearOffer.send .rejectedUnwanted
          peer.coordinator.offeredNumber).answering = _
      rw [Peer.answering, send_answers]
      change
        Answering.mk _ _ (peer.answers ++ []) _ _ = Answering.mk _ _ _ _ _
      rw [List.append_nil]
      rfl
  | pause =>
      refine AnsweringEffect.quiet (by simp) ?_
      change ((peer.setPaused true).send .pause 0).answering = _
      rw [Peer.answering, send_answers]
      change
        Answering.mk _ _ (peer.answers ++ []) _ _ = Answering.mk _ _ _ _ _
      rw [List.append_nil]
      rfl
  | resume =>
      refine AnsweringEffect.quiet (by simp) ?_
      change ((peer.setPaused false).send .resume 0).answering = _
      rw [Peer.answering, send_answers]
      change
        Answering.mk _ _ (peer.answers ++ []) _ _ = Answering.mk _ _ _ _ _
      rw [List.append_nil]
      rfl
  | disconnect => exact AnsweringEffect.quiet (by simp) rfl

end Quiczilla
