import Quiczilla.Link
import Quiczilla.Negotiation
import Quiczilla.OfferSlots
import Quiczilla.Verification

/-!
# What the terminal statuses of a transfer say

The receive task ends in about ten ways, reports one of three statuses to its
own application and answers the sender with `RECEIVED_FILE:OK` or
`RECEIVED_FILE:FAILED`.  The sender reports `HashFailed` for the second, which
the command line turns into the exit code of an integrity failure.

The history records the comparisons that the receiver makes, so that a report
of the sender can be held against the comparison that it stands for.
-/

namespace Quiczilla

open Foundation

/-- `INTEGRITY_FAILURE`. -/
def integrityFailure : Nat := 5

/-- The exit code for the status that `run_file_transfer_cli` is told. -/
def FileTransferStatus.exitCode : FileTransferStatus → Nat
  | .completed => 0
  | .hashFailed => integrityFailure
  | .rejectedAlreadyReceiving => 6
  | .rejectedAlreadySending => 6
  | .rejectedUnwanted => 6
  | .cancelled => 130
  | .etc => 1

/-! ## The messages about the end of a transfer -/

/-- What the peer that handles the message reports. -/
def ControlMessage.report? : ControlMessage → Option FileTransferStatus
  | .receivedFileOk => some .completed
  | .receivedFileFailed => some .hashFailed
  | .rejectedUnwanted => some .rejectedUnwanted
  | .rejectedAlreadyReceiving => some .rejectedAlreadyReceiving
  | .rejectedAlreadySending => some .rejectedAlreadySending
  | _ => none

def ControlMessage.hash? : ControlMessage → Option String
  | .fileSent hash => some hash
  | _ => none

def PeerEvent.report? : PeerEvent → Option FileTransferStatus
  | .transferComplete status => some status
  | _ => none

/-- Whether the message is about the end of a transfer. -/
def ControlMessage.isFinal (message : ControlMessage) : Bool :=
  message.report?.isSome || message.hash?.isSome

/-- What the application has been told about transfers that have ended. -/
def Peer.reports (peer : Peer) : List FileTransferStatus :=
  peer.events.filterMap PeerEvent.report?

/-- The messages under way that are about the end of a transfer. -/
def Peer.finals (peer : Peer) : List ControlMessage :=
  (peer.outbox.map Letter.message).filter ControlMessage.isFinal

/-- The part of a peer that the end of a transfer shows in. -/
structure FinalSide where
  reports : List FileTransferStatus
  finals : List ControlMessage
  hashQueue : List String
  deriving DecidableEq, Repr

def Peer.finalSide (peer : Peer) : FinalSide where
  reports := peer.reports
  finals := peer.finals
  hashQueue := peer.hashQueue

def FinalSide.tell (side : FinalSide) (message : ControlMessage) :
    FinalSide :=
  { side with finals := side.finals ++ [message] }

def FinalSide.report (side : FinalSide) (status : FileTransferStatus) :
    FinalSide :=
  { side with reports := side.reports ++ [status] }

/-- What the coordination loop does to it. -/
def FinalSide.after (side : FinalSide) : PeerLabel → FinalSide
  | .control letter _ =>
      { side with
        reports := side.reports ++ letter.message.report?.toList
        hashQueue := side.hashQueue ++ letter.message.hash?.toList }
  | .command .rejectFile _ => side.tell .rejectedUnwanted
  | _ => side

theorem mem_reports
    {peer : Peer} {status : FileTransferStatus} :
    status ∈ peer.reports ↔ .transferComplete status ∈ peer.events := by
  constructor
  · intro reported
    obtain ⟨event, isEvent, isStatus⟩ := List.mem_filterMap.mp reported
    cases event <;> cases isStatus
    exact isEvent
  · intro isEvent
    exact List.mem_filterMap.mpr ⟨_, isEvent, rfl⟩

theorem send_final
    (peer : Peer) {message : ControlMessage} (offer : Nat)
    (isFinal : message.isFinal = true) :
    (peer.send message offer).finalSide =
      peer.finalSide.tell message := by
  simp [Peer.finalSide, Peer.finals, Peer.reports, Peer.send,
    FinalSide.tell, isFinal]

theorem send_other
    (peer : Peer) {message : ControlMessage} (offer : Nat)
    (other : message.isFinal = false) :
    (peer.send message offer).finalSide = peer.finalSide := by
  simp [Peer.finalSide, Peer.finals, Peer.reports, Peer.send, other]

theorem emit_report (peer : Peer) (status : FileTransferStatus) :
    (peer.emit (.transferComplete status)).finalSide =
      peer.finalSide.report status := by
  simp [Peer.finalSide, Peer.finals, Peer.reports, Peer.emit,
    FinalSide.report, PeerEvent.report?]

theorem emit_other
    (peer : Peer) {event : PeerEvent} (other : event.report? = none) :
    (peer.emit event).finalSide = peer.finalSide := by
  simp [Peer.finalSide, Peer.finals, Peer.reports, Peer.emit, other]

theorem final_of_negotiates
    {message : ControlMessage} (negotiates : message.negotiates = true) :
    message.report? = none ∧ message.hash? = none := by
  cases message <;> first | exact ⟨rfl, rfl⟩ | cases negotiates

theorem finalSide_unnegotiated : Unnegotiated Peer.finalSide where
  coordinator _ _ := rfl
  triggerSend _ _ := rfl
  triggerRecv _ _ := rfl
  touch _ _ _ := rfl
  send peer message offer negotiates := by
    obtain ⟨noReport, noHash⟩ := final_of_negotiates negotiates
    apply send_other
    rw [ControlMessage.isFinal, noReport, noHash]
    rfl
  emit peer event negotiates := by
    apply emit_other
    cases event <;> first | rfl | cases negotiates

theorem handleControl_finalSide
    (peer : Peer) (letter : Letter) (faults : Faults) :
    (peer.handleControl letter faults).finalSide =
      peer.finalSide.after (.control letter faults) := by
  have settled :
      (peer.handleControl letter faults).finalSide =
        (peer.dispatch letter faults).finalSide := rfl
  rw [settled]
  by_cases negotiates : letter.message.negotiates = true
  · obtain ⟨noReport, noHash⟩ := final_of_negotiates negotiates
    rw [finalSide_unnegotiated.dispatch peer negotiates]
    simp [FinalSide.after, noReport, noHash]
  · obtain ⟨message, offer⟩ := letter
    have reported (before : Peer) (status : FileTransferStatus)
        (same : before.finalSide = peer.finalSide) :
        (before.emit (.transferComplete status)).finalSide =
          ⟨peer.reports ++ [status], peer.finals,
            peer.hashQueue ++ []⟩ := by
      rw [emit_report, same, List.append_nil]
      rfl
    have silent :
        peer.finalSide =
          ⟨peer.reports ++ [], peer.finals, peer.hashQueue ++ []⟩ := by
      simp [Peer.finalSide]
    cases message with
    | pause => exact (emit_other (peer.setPaused true) rfl).trans silent
    | resume => exact (emit_other (peer.setPaused false) rfl).trans silent
    | fileSent hash =>
        simp [Peer.dispatch, FinalSide.after, ControlMessage.report?,
          ControlMessage.hash?, Peer.finalSide, Peer.reports,
          Peer.finals]
    | receivedFileOk => exact reported peer .completed rfl
    | receivedFileFailed =>
        exact reported { peer with cancelled := true } .hashFailed rfl
    | rejectedUnwanted => exact reported peer .rejectedUnwanted rfl
    | rejectedAlreadyReceiving =>
        exact reported peer .rejectedAlreadyReceiving rfl
    | rejectedAlreadySending =>
        exact reported peer .rejectedAlreadySending rfl
    | _ => exact absurd rfl negotiates

theorem handleCommand_finalSide
    (peer : Peer) (command : PeerCommand) (faults : Faults) :
    (peer.handleCommand command faults).finalSide =
      peer.finalSide.after (.command command faults) := by
  cases command with
  | sendFile path checksum resume =>
      exact
        finalSide_unnegotiated.handleSendFile peer
          ⟨path, checksum, resume⟩ faults
  | acceptFile saveDir checksum resume =>
      exact
        finalSide_unnegotiated.handleAcceptFile peer
          ⟨saveDir, checksum, resume⟩ faults
  | rejectFile => exact send_final peer.clearOffer _ rfl
  | pause =>
      rw [Peer.handleCommand, emit_other _ rfl, send_other _ _ rfl]
      rfl
  | resume =>
      rw [Peer.handleCommand, emit_other _ rfl, send_other _ _ rfl]
      rfl
  | disconnect => rfl

theorem endLoop_finalSide (peer : Peer) (reason : Option String) :
    (peer.endLoop reason).finalSide = peer.finalSide := by
  cases reason with
  | none => rfl
  | some text => exact emit_other { peer with mainEnded := true } rfl

theorem failReceive_finalSide
    (peer : Peer) (status : FileTransferStatus) :
    (peer.failReceive status).finalSide =
      (peer.finalSide.tell .receivedFileFailed).report status := by
  rw [Peer.failReceive, emit_report, send_final _ _ rfl]
  rfl

theorem completeReceive_finalSide
    (peer : Peer) (verifying : Verifying) (expectedHash : String) :
    (peer.completeReceive verifying expectedHash).finalSide =
      (peer.finalSide.tell .receivedFileOk).report .completed := by
  rw [Peer.completeReceive, emit_report, send_final _ _ rfl]
  rfl

theorem progressed_finalSide
    (peer : Peer) (verifying : Verifying) (rest : List String) :
    (peer.progressed verifying rest).finalSide =
      { peer.finalSide with hashQueue := rest } :=
  emit_other { peer with hashQueue := rest } rfl

/-- A step of the coordination loop leaves both transfer tasks where they
are. -/
theorem loopStep_finalSide
    {peer next : Peer} {label : PeerLabel} (isLoop : label.isLoop = true)
    (stepped : peerStep peer label = some next) :
    next.finalSide = peer.finalSide.after label ∧
      next.sender = peer.sender ∧ next.receiver = peer.receiver := by
  have same := loopStep_taskSide isLoop stepped
  refine
    ⟨?_, congrArg TaskSide.sender same, congrArg TaskSide.receiver same⟩
  cases label with
  | control letter faults =>
      simp only [peerStep] at stepped
      split at stepped <;> cases stepped
      exact handleControl_finalSide peer letter faults
  | command command faults =>
      simp only [peerStep] at stepped
      split at stepped <;> cases stepped
      exact handleCommand_finalSide peer command faults
  | loopEnds reason =>
      simp only [peerStep] at stepped
      split at stepped <;> cases stepped
      exact endLoop_finalSide peer reason
  | send label => cases isLoop
  | recv label => cases isLoop

/-! ## The transfer tasks -/

/-- `NONE`, or the hash of some content. -/
def IsDigest (hash : String) : Prop :=
  hash = "NONE" ∨ ∃ content, hash = sha256Hex content

theorem isDigest_of_map
    {content : Option (List UInt8)} :
    IsDigest ((content.map sha256Hex).getD "NONE") := by
  cases content with
  | none => exact Or.inl rfl
  | some bytes => exact Or.inr ⟨bytes, rfl⟩

theorem finalHash_isDigest
    (peer : Peer) (stream : SendStream) {inlineHash : String}
    (inlineDigest : IsDigest inlineHash) (rehashFails : Bool) :
    IsDigest (peer.finalHash stream inlineHash rehashFails) := by
  unfold Peer.finalHash
  split
  · split
    · exact Or.inl rfl
    · exact isDigest_of_map
  · exact inlineDigest

theorem inlineHash_isDigest (stream : SendStream) :
    IsDigest stream.inlineHash := by
  unfold SendStream.inlineHash
  split
  · exact Or.inr ⟨stream.hashed, rfl⟩
  · exact Or.inl rfl

/-- The hash that the disk reader has ended with. -/
def Peer.InlineDigest (peer : Peer) : Prop :=
  ∀ stream hash, peer.sender = .streaming stream →
    stream.reader = .finished hash → IsDigest hash

/-- The send task says nothing about the end of a transfer but the hash of
what it has sent. -/
theorem sendStep_finalSide
    {peer next : Peer} {label : SendLabel} (digest : peer.InlineDigest)
    (stepped : peer.sendStep label = some next) :
    next.InlineDigest ∧
      (next.finalSide = peer.finalSide ∨
        ∃ hash, IsDigest hash ∧
          next.finalSide = peer.finalSide.tell (.fileSent hash)) := by
  have elsewhere {before : Peer}
      (phase : ∀ stream, before.sender ≠ .streaming stream) :
      before.InlineDigest :=
    fun stream _ streaming _ => absurd streaming (phase stream)
  have streams (before : Peer) {stream : SendStream}
      (reader :
        ∀ hash, stream.reader = .finished hash → IsDigest hash) :
      (before.withStream stream).InlineDigest := by
    intro other hash streaming finished
    cases streaming
    exact reader hash finished
  cases sendStep_effect stepped with
  | started job rest => exact ⟨elsewhere nofun, Or.inl rfl⟩
  | openFailed job reason =>
      exact
        ⟨elsewhere nofun,
          Or.inl (emit_other (peer.stopSending _) rfl)⟩
  | opened job totalBytes => exact ⟨streams peer nofun, Or.inl rfl⟩
  | read stream length bytes streaming reading =>
      refine ⟨streams peer fun hash finished => ?_, Or.inl rfl⟩
      cases reading.symm.trans finished
  | readEnded stream content =>
      refine ⟨streams peer fun hash finished => ?_, Or.inl rfl⟩
      cases finished
      exact inlineHash_isDigest stream
  | readFailed stream => exact ⟨streams peer nofun, Or.inl rfl⟩
  | took stream chunk rest streaming =>
      exact
        ⟨streams peer fun hash => digest stream hash streaming,
          Or.inl rfl⟩
  | wrote stream chunk streaming =>
      exact
        ⟨streams (peer.put chunk) fun hash =>
            digest stream hash streaming,
          Or.inl rfl⟩
  | wroteStopped stream chunk length =>
      exact ⟨elsewhere nofun, Or.inl rfl⟩
  | reported stream =>
      exact ⟨digest, Or.inl (emit_other peer rfl)⟩
  | gaveUp stream => exact ⟨elsewhere nofun, Or.inl rfl⟩
  | finished stream inlineHash rehashFails streaming _ _ finished =>
      have isDigest :=
        finalHash_isDigest peer stream
          (digest stream inlineHash streaming finished) rehashFails
      refine ⟨elsewhere nofun, Or.inr ⟨_, isDigest, ?_⟩⟩
      rw [send_final _ _ rfl, emit_other _ rfl]
      rfl

theorem sendStep_reports
    {peer next : Peer} {label : SendLabel} (digest : peer.InlineDigest)
    (stepped : peer.sendStep label = some next) :
    next.reports = peer.reports := by
  obtain ⟨-, same | ⟨hash, -, told⟩⟩ := sendStep_finalSide digest stepped
  · exact congrArg FinalSide.reports same
  · exact congrArg FinalSide.reports told

/-- A message that tells the outcome is reported. -/
theorem control_reports
    {peer next : Peer} {letter : Letter} {faults : Faults}
    (taken : peerStep peer (.control letter faults) = some next) :
    next.reports = peer.reports ++ letter.message.report?.toList :=
  congrArg FinalSide.reports (loopStep_finalSide rfl taken).1

/-- What `verify` looks at: the stored file and the hash of the sender. -/
structure Comparison where
  verifying : Verifying
  expectedHash : String
  deriving DecidableEq, Repr

/-- The comparison that a step of the receive task makes. -/
def Peer.comparison? (peer : Peer) (label : RecvLabel) :
    Option Comparison :=
  match label, peer.receiver, peer.hashQueue with
  | .verify _, .verifying verifying, expectedHash :: _ =>
      some ⟨verifying, expectedHash⟩
  | _, _, _ => none

def Comparison.passes (comparison : Comparison) : Bool :=
  hashOk comparison.expectedHash comparison.verifying.actualHash

/-- The status that the comparison calls for. -/
def Comparison.status (comparison : Comparison) : FileTransferStatus :=
  if comparison.passes then .completed else .hashFailed

/-- Both hashes were computed, and they differ. -/
def Comparison.Mismatch (comparison : Comparison) : Prop :=
  ∃ sent,
    comparison.expectedHash = sha256Hex sent ∧
      comparison.verifying.actualHash =
          sha256Hex comparison.verifying.content ∧
        sha256Hex sent ≠ sha256Hex comparison.verifying.content

/-- Nothing but a comparison ends the receive in this step: the target opens,
the file stream and the disk writer have not failed, and a staging file that
passes can be renamed. -/
def Peer.receiveWorks (peer : Peer) (label : RecvLabel) : Bool :=
  match peer.receiver, label with
  | .opening _, .openTarget outcome => outcome == .opened
  | .receiving receiving, .closeFile flushFails _ =>
      receiving.writerAlive && receiving.loopEnd != some false &&
        !flushFails
  | .verifying verifying, .verify renameFails =>
      match peer.hashQueue with
      | expectedHash :: _ =>
          !hashOk expectedHash verifying.actualHash ||
            !verifying.job.usePart ||
              (!renameFails &&
                (peer.files.rename verifying.targetWritePath
                  verifying.job.destPath).isSome)
      | [] => true
  | _, _ => true

/-- The hash of the stored file, unless none was asked for or computed. -/
def Verifying.Computed (verifying : Verifying) : Prop :=
  verifying.actualHash = "NONE" ∨
    verifying.actualHash = sha256Hex verifying.content

theorem verifyingOf_computed
    (peer : Peer) (receiving : Receiving) (rehashFails : Bool) :
    (peer.verifyingOf receiving rehashFails).Computed := by
  by_cases rehashes : receiving.job.rehashes = true
  · cases rehashFails with
    | true => exact Or.inl (by simp [Peer.verifyingOf, rehashes])
    | false =>
        cases present : peer.files.content? receiving.targetWritePath with
        | none =>
            exact
              Or.inl
                (by
                  simp [Peer.verifyingOf, rehashes, computeFileSha256,
                    present])
        | some content =>
            exact
              Or.inr
                (by
                  simp [Peer.verifyingOf, rehashes, computeFileSha256,
                    present])
  · by_cases inline : receiving.job.hashesInline = true
    · exact Or.inr (by simp [Peer.verifyingOf, rehashes, inline])
    · exact Or.inl (by simp [Peer.verifyingOf, rehashes, inline])

theorem recvStep_computed
    {peer next : Peer} {label : RecvLabel}
    (computed :
      ∀ verifying, peer.receiver = .verifying verifying →
        verifying.Computed)
    (stepped : peer.recvStep label = some next) :
    ∀ verifying, next.receiver = .verifying verifying →
      verifying.Computed := by
  cases recvStep_effect stepped with
  | closed receiving flushFails rehashFails =>
      rintro verifying ⟨⟩
      exact verifyingOf_computed peer receiving rehashFails
  | reported receiving => exact computed
  | _ => nofun

/-- How a step of the receive task shows at the end of a transfer. -/
inductive VerdictEffect (peer : Peer) (label : RecvLabel) (next : Peer) :
    Prop
  | silent :
      peer.comparison? label = none →
      peer.receiveWorks label = true →
      next.finalSide = peer.finalSide →
      VerdictEffect peer label next
  | judged (comparison : Comparison) (rest : List String)
      (message : ControlMessage) :
      peer.comparison? label = some comparison →
      peer.receiveWorks label = true →
      peer.hashQueue = comparison.expectedHash :: rest →
      message.report? = some comparison.status →
      message.hash? = none →
      next.finalSide =
        (({ peer.finalSide with hashQueue := rest }).tell message).report
          comparison.status →
      VerdictEffect peer label next
  | uncommitted (comparison : Comparison) (rest : List String) :
      peer.comparison? label = some comparison →
      peer.receiveWorks label = false →
      peer.hashQueue = comparison.expectedHash :: rest →
      comparison.passes = true →
      next.receiver = .stopped →
      next.finalSide =
        (({ peer.finalSide with hashQueue := rest }).tell
            .receivedFileFailed).report .hashFailed →
      VerdictEffect peer label next
  | gaveUp :
      peer.comparison? label = none →
      peer.receiveWorks label = false →
      next.receiver = .stopped →
      next.finalSide =
        (peer.finalSide.tell .receivedFileFailed).report .etc →
      VerdictEffect peer label next

theorem commit_isSome
    (peer : Peer) (verifying : Verifying) (renameFails : Bool) :
    (peer.commit verifying renameFails).isSome =
      (!verifying.job.usePart ||
        (!renameFails &&
          (peer.files.rename verifying.targetWritePath
            verifying.job.destPath).isSome)) := by
  unfold Peer.commit
  cases verifying.job.usePart <;> cases renameFails <;> simp

theorem commit_finalSide
    {peer committed : Peer} {verifying : Verifying} {renameFails : Bool}
    (commit : peer.commit verifying renameFails = some committed) :
    committed.finalSide = peer.finalSide := by
  unfold Peer.commit at commit
  split at commit
  · split at commit
    · cases commit
    · obtain ⟨renamed, _, rfl⟩ := Option.map_eq_some_iff.mp commit
      rfl
  · cases commit
    rfl

theorem verify_verdict
    {peer next : Peer} {verifying : Verifying} {renameFails : Bool}
    (active : peer.receiver = .verifying verifying)
    (stepped : peer.verify verifying renameFails = some next) :
    VerdictEffect peer (.verify renameFails) next := by
  unfold Peer.verify at stepped
  split at stepped
  · rename_i expectedHash rest queued
    have compares :
        peer.comparison? (.verify renameFails) =
          some ⟨verifying, expectedHash⟩ := by
      simp only [Peer.comparison?, active, queued]
    have works :
        peer.receiveWorks (.verify renameFails) =
          (!hashOk expectedHash verifying.actualHash ||
            ((peer.progressed verifying rest).commit verifying
              renameFails).isSome) := by
      simp only [commit_isSome, Peer.receiveWorks, active, queued,
        Bool.or_assoc]
      rfl
    simp only at stepped
    split at stepped
    · rename_i passes
      have status :
          (Comparison.mk verifying expectedHash).status = .completed :=
        if_pos passes
      split at stepped
      · rename_i committed committing
        cases stepped
        have commit :
            (peer.progressed verifying rest).commit verifying
              renameFails = some committed := committing
        refine
          VerdictEffect.judged _ rest .receivedFileOk compares ?_ queued
            (congrArg some status.symm) rfl ?_
        · rw [works, commit, Option.isSome_some, Bool.or_true]
        · rw [completeReceive_finalSide, commit_finalSide commit,
            progressed_finalSide, status]
      · rename_i refusing
        cases stepped
        have refused :
            (peer.progressed verifying rest).commit verifying
              renameFails = none := refusing
        refine
          VerdictEffect.uncommitted _ rest compares ?_ queued passes rfl ?_
        · rw [works, passes, refused]
          rfl
        · rw [← progressed_finalSide peer verifying rest]
          exact
            failReceive_finalSide (peer.progressed verifying rest)
              .hashFailed
    · rename_i differs
      have status :
          (Comparison.mk verifying expectedHash).status = .hashFailed :=
        if_neg differs
      cases stepped
      refine
        VerdictEffect.judged _ rest .receivedFileFailed compares ?_ queued
          (congrArg some status.symm) rfl ?_
      · rw [works, Bool.eq_false_of_not_eq_true differs]
        rfl
      · rw [status, ← progressed_finalSide peer verifying rest]
        exact
          failReceive_finalSide (peer.progressed verifying rest)
            .hashFailed
  · cases stepped

theorem openTarget_verdict
    {peer next : Peer} {job : RecvJob} {outcome : OpenTarget}
    (opening : peer.receiver = .opening job)
    (stepped : peer.openTarget job outcome = some next) :
    VerdictEffect peer (.openTarget outcome) next := by
  have works :
      peer.receiveWorks (.openTarget outcome) = (outcome == .opened) := by
    simp only [Peer.receiveWorks, opening]
  unfold Peer.openTarget at stepped
  split at stepped
  · cases stepped
    exact
      VerdictEffect.gaveUp rfl works rfl (failReceive_finalSide peer .etc)
  · rename_i files _
    cases stepped
    exact
      VerdictEffect.gaveUp rfl works rfl
        (failReceive_finalSide { peer with files := files } .etc)
  · split at stepped
    · obtain ⟨opened, _, rfl⟩ := Option.map_eq_some_iff.mp stepped
      exact
        VerdictEffect.gaveUp rfl works rfl
          (failReceive_finalSide
            (peer.touch [job.targetWritePath] opened) .etc)
    · cases stepped
  · obtain ⟨opened, _, rfl⟩ := Option.map_eq_some_iff.mp stepped
    exact VerdictEffect.silent rfl works rfl
  · cases stepped

theorem closeFile_verdict
    {peer next : Peer} {receiving : Receiving}
    {flushFails rehashFails : Bool}
    (active : peer.receiver = .receiving receiving)
    (stepped :
      peer.closeFile receiving flushFails rehashFails = some next) :
    VerdictEffect peer (.closeFile flushFails rehashFails) next := by
  have works :
      peer.receiveWorks (.closeFile flushFails rehashFails) =
        (receiving.writerAlive && receiving.loopEnd != some false &&
          !flushFails) := by
    simp only [Peer.receiveWorks, active]
  unfold Peer.closeFile at stepped
  split at stepped
  · cases stepped
  · rename_i success ended
    rw [ended] at works
    split at stepped
    · rename_i dead
      cases stepped
      rw [dead] at works
      exact
        VerdictEffect.gaveUp rfl works rfl (failReceive_finalSide peer .etc)
    · rename_i alive
      split at stepped
      · cases stepped
      · split at stepped
        · rename_i fails
          cases stepped
          refine
            VerdictEffect.gaveUp rfl ?_ rfl
              (failReceive_finalSide peer .etc)
          rw [works]
          rcases fails with rfl | rfl <;> simp
        · rename_i succeeds
          cases stepped
          refine VerdictEffect.silent rfl ?_ rfl
          rw [works]
          cases success <;> cases flushFails <;> simp_all

theorem receiving_verdict
    {peer next : Peer} {receiving : Receiving} {label : RecvLabel}
    (active : peer.receiver = .receiving receiving)
    (stepped : peer.recvStep label = some next) :
    VerdictEffect peer label next := by
  have silent (noCompare : peer.comparison? label = none)
      (works : peer.receiveWorks label = true) :
      next.finalSide = peer.finalSide → VerdictEffect peer label next :=
    VerdictEffect.silent noCompare works
  unfold Peer.recvStep at stepped
  rw [active] at stepped
  simp only [Peer.receiveWorks, active] at silent
  cases label with
  | receive chunk =>
      simp only [Peer.receive] at stepped
      split at stepped <;> cases stepped
      exact silent rfl rfl rfl
  | receiveFails =>
      simp only [Peer.receiveFails] at stepped
      split at stepped <;> cases stepped
      exact silent rfl rfl rfl
  | endReceive =>
      simp only [Peer.endReceive] at stepped
      split at stepped <;> cases stepped
      exact silent rfl rfl rfl
  | writeChunk =>
      simp only [Peer.storeChunk] at stepped
      split at stepped <;> cases stepped
      exact silent rfl rfl rfl
  | writeFails length =>
      simp only [Peer.storeFails] at stepped
      split at stepped
      · split at stepped <;> cases stepped
        exact silent rfl rfl rfl
      · cases stepped
  | report =>
      cases stepped
      exact silent rfl rfl (emit_other peer rfl)
  | closeFile flushFails rehashFails =>
      exact closeFile_verdict active stepped
  | _ => cases stepped

/-- Every way to leave the receive task. -/
theorem recvStep_verdict
    {peer next : Peer} {label : RecvLabel}
    (stepped : peer.recvStep label = some next) :
    VerdictEffect peer label next := by
  cases phase : peer.receiver with
  | idle =>
      unfold Peer.recvStep at stepped
      rw [phase] at stepped
      cases label <;> simp only at stepped <;> try cases stepped
      split at stepped <;> cases stepped
      refine VerdictEffect.silent rfl ?_ rfl
      simp only [Peer.receiveWorks, phase]
  | opening job =>
      unfold Peer.recvStep at stepped
      rw [phase] at stepped
      cases label <;> simp only at stepped <;> try cases stepped
      exact openTarget_verdict phase stepped
  | receiving receiving => exact receiving_verdict phase stepped
  | verifying verifying =>
      unfold Peer.recvStep at stepped
      rw [phase] at stepped
      cases label <;> simp only at stepped <;> try cases stepped
      · exact verify_verdict phase stepped
      · split at stepped <;> cases stepped
        refine VerdictEffect.silent rfl ?_ rfl
        simp only [Peer.receiveWorks, phase]
  | stopped =>
      unfold Peer.recvStep at stepped
      rw [phase] at stepped
      cases label <;> cases stepped

/-! ## The two ends -/

/-- What the sender has reported about accepted transfers, followed by what it
reports once it has handled the messages that are under way. -/
def Link.verdicts (link : Link) : List FileTransferStatus :=
  (link.left.reports ++
      link.right.finals.filterMap ControlMessage.report?).filter
    (· != .rejectedUnwanted)

/-- The comparisons that the receiver makes, in order. -/
def noteComparison (link : Link) (label : LinkLabel) (_ : Link)
    (comparisons : List Comparison) : List Comparison :=
  match label with
  | .rightRecv label =>
      comparisons ++ (link.right.comparison? label).toList
  | _ => comparisons

/-- The link and the history of comparisons. -/
def comparingStep :
    Link × List Comparison → LinkLabel →
      Option (Link × List Comparison) :=
  withHistory linkStep noteComparison

def Link.receiveWorks (link : Link) : LinkLabel → Bool
  | .rightRecv label => link.right.receiveWorks label
  | _ => true

/-- The exit code of an integrity failure stands for a comparison of two
different hashes, and both ends report the same. -/
structure ReportsAgree
    (sender receiver : List FileTransferStatus)
    (comparisons : List Comparison) : Prop where
  integrity :
    ∀ (position : Nat) (status : FileTransferStatus),
      sender[position]? = some status →
        status.exitCode = integrityFailure →
          ∃ comparison, comparisons[position]? = some comparison ∧
            comparison.Mismatch
  same : sender = receiver

theorem filterMap_finals (peer : Peer) :
    peer.finals.filterMap ControlMessage.report? =
      peer.outbox.filterMap fun letter => letter.message.report? := by
  rw [Peer.finals, List.filterMap_filter, List.filterMap_map]
  congr 1
  funext letter
  cases reported : letter.message.report? <;>
    simp [ControlMessage.isFinal, reported]

/-- The hashes that are under way, waiting or compared are hashes. -/
structure Link.Informed (link : Link) : Prop where
  inline : link.left.InlineDigest
  announced :
    ∀ message ∈ link.left.finals,
      ∃ hash, message = .fileSent hash ∧ IsDigest hash
  queued : ∀ hash ∈ link.right.hashQueue, IsDigest hash
  computed :
    ∀ verifying, link.right.receiver = .verifying verifying →
      verifying.Computed

/-- A message of the sender is `FILE_SENT` or not about the end. -/
theorem Link.Informed.arrives
    {link : Link} (informed : link.Informed) {letter : Letter}
    {rest : List Letter} (arrived : link.left.outbox = letter :: rest) :
    letter.message.report? = none ∧
      (∀ hash ∈ letter.message.hash?, IsDigest hash) ∧
        ∀ message ∈ (link.left.withOutbox rest).finals,
          ∃ hash, message = .fileSent hash ∧ IsDigest hash := by
  have announced := informed.announced
  rw [Peer.finals, arrived, List.map_cons, List.filter_cons] at announced
  by_cases isFinal : letter.message.isFinal = true
  · rw [if_pos isFinal] at announced
    obtain ⟨first, others⟩ := List.forall_mem_cons.mp announced
    obtain ⟨hash, isSent, isDigest⟩ := first
    rw [isSent]
    refine ⟨rfl, ?_, others⟩
    intro other isHash
    cases isHash
    exact isDigest
  · rw [if_neg isFinal] at announced
    simp only [ControlMessage.isFinal, Bool.or_eq_true, not_or,
      Option.not_isSome_iff_eq_none] at isFinal
    refine ⟨isFinal.1, ?_, announced⟩
    rw [isFinal.2]
    nofun

theorem after_sends
    (side : FinalSide) {command : PeerCommand} (faults : Faults)
    (sends : command.sends = true) :
    side.after (.command command faults) = side := by
  cases command <;> first | rfl | cases sends

/-- The sender has moved on and has announced nothing but hashes. -/
theorem Link.Informed.withLeft
    {link : Link} (informed : link.Informed) {left : Peer}
    (inline : left.InlineDigest)
    (finals :
      left.finals = link.left.finals ∨
        ∃ hash, IsDigest hash ∧
          left.finals = link.left.finals ++ [.fileSent hash]) :
    Link.Informed ⟨left, link.right⟩ where
  inline := inline
  announced := by
    change ∀ message ∈ left.finals, _
    rcases finals with same | ⟨hash, isDigest, added⟩
    · rw [same]
      exact informed.announced
    · rw [added]
      intro message member
      rcases List.mem_append.mp member with before | last
      · exact informed.announced message before
      · exact ⟨hash, List.mem_singleton.mp last, isDigest⟩
  queued := informed.queued
  computed := informed.computed

theorem Link.Informed.withRight
    {link : Link} (informed : link.Informed) {right : Peer}
    (queued : ∀ hash ∈ right.hashQueue, IsDigest hash)
    (computed :
      ∀ verifying, right.receiver = .verifying verifying →
        verifying.Computed) :
    Link.Informed ⟨link.left, right⟩ where
  inline := informed.inline
  announced := informed.announced
  queued := queued
  computed := computed

theorem recvStep_queued
    {peer next : Peer} {label : RecvLabel}
    (queued : ∀ hash ∈ peer.hashQueue, IsDigest hash)
    (stepped : peer.recvStep label = some next) :
    ∀ hash ∈ next.hashQueue, IsDigest hash := by
  have shortened (rest : List String) (expectedHash : String)
      (isQueue : peer.hashQueue = expectedHash :: rest)
      (isNext : next.hashQueue = rest) :
      ∀ hash ∈ next.hashQueue, IsDigest hash := by
    rw [isNext]
    rw [isQueue] at queued
    exact (List.forall_mem_cons.mp queued).2
  cases recvStep_verdict stepped with
  | silent _ _ same =>
      have isNext : next.hashQueue = peer.hashQueue :=
        congrArg FinalSide.hashQueue same
      rwa [isNext]
  | judged comparison rest message _ _ isQueue _ _ isNext =>
      exact
        shortened rest _ isQueue (congrArg FinalSide.hashQueue isNext)
  | uncommitted comparison rest _ _ isQueue _ _ isNext =>
      exact
        shortened rest _ isQueue (congrArg FinalSide.hashQueue isNext)
  | gaveUp _ _ _ same =>
      have isNext : next.hashQueue = peer.hashQueue :=
        congrArg FinalSide.hashQueue same
      rwa [isNext]

theorem Link.Informed.step
    {link next : Link} {label : LinkLabel} (informed : link.Informed)
    (stepped : linkStep link label = some next) :
    next.Informed := by
  have leftLoops {label : PeerLabel} {left : Peer}
      (isLoop : label.isLoop = true)
      (same : link.left.finalSide.after label = link.left.finalSide)
      (taken : peerStep link.left label = some left) :
      Link.Informed ⟨left, link.right⟩ := by
    obtain ⟨side, sender, _⟩ := loopStep_finalSide isLoop taken
    rw [same] at side
    refine
      informed.withLeft ?_ (Or.inl (congrArg FinalSide.finals side))
    rw [Peer.InlineDigest, sender]
    exact informed.inline
  have rightLoops {left right : Peer} {label : PeerLabel}
      (known : Link.Informed ⟨left, link.right⟩)
      (isLoop : label.isLoop = true)
      (hashes :
        ∀ hash ∈ (link.right.finalSide.after label).hashQueue,
          IsDigest hash)
      (taken : peerStep link.right label = some right) :
      Link.Informed ⟨left, right⟩ := by
    obtain ⟨side, _, receiver⟩ := loopStep_finalSide isLoop taken
    refine known.withRight ?_ ?_
    · rw [← side] at hashes
      exact hashes
    · rw [receiver]
      exact informed.computed
  cases linkStep_effect stepped with
  | leftCommand command faults left sends taken =>
      exact leftLoops rfl (after_sends _ faults sends) taken
  | leftControl faults letter rest left arrived taken =>
      obtain ⟨side, sender, _⟩ := loopStep_finalSide rfl taken
      have finals : left.finals = link.left.finals :=
        congrArg FinalSide.finals side
      refine ⟨?_, ?_, informed.queued, informed.computed⟩
      · rw [Peer.InlineDigest, sender]
        exact informed.inline
      · change ∀ message ∈ left.finals, _
        rw [finals]
        exact informed.announced
  | leftEnds reason left taken => exact leftLoops rfl rfl taken
  | leftSend label left taken =>
      obtain ⟨inline, side⟩ :=
        sendStep_finalSide informed.inline taken
      refine informed.withLeft inline ?_
      rcases side with same | ⟨hash, isDigest, told⟩
      · exact Or.inl (congrArg FinalSide.finals same)
      · exact Or.inr ⟨hash, isDigest, congrArg FinalSide.finals told⟩
  | rightCommand command faults right receives taken =>
      refine rightLoops informed rfl ?_ taken
      cases command <;> exact informed.queued
  | rightControl faults letter rest right arrived taken =>
      obtain ⟨_, hashes, finals⟩ := informed.arrives arrived
      have posted : Link.Informed ⟨link.left.withOutbox rest, link.right⟩ :=
        ⟨informed.inline, finals, informed.queued, informed.computed⟩
      refine rightLoops posted rfl ?_ taken
      intro hash member
      rcases List.mem_append.mp member with before | new
      · exact informed.queued hash before
      · exact hashes hash (Option.mem_toList.mp new)
  | rightEnds reason right taken =>
      refine rightLoops informed rfl ?_ taken
      exact informed.queued
  | received chunk rest right isOut taken =>
      have read : Link.Informed ⟨link.left.withFileOut rest, link.right⟩ :=
        ⟨informed.inline, informed.announced, informed.queued,
          informed.computed⟩
      exact
        read.withRight (recvStep_queued informed.queued taken)
          (recvStep_computed informed.computed taken)
  | rightRecv label right _ taken =>
      exact
        informed.withRight (recvStep_queued informed.queued taken)
          (recvStep_computed informed.computed taken)

/-! ## Runs -/

/-- What the two applications have been told or will be. -/
structure Ends where
  verdicts : List FileTransferStatus
  reports : List FileTransferStatus
  deriving DecidableEq, Repr

def Link.ends (link : Link) : Ends where
  verdicts := link.verdicts
  reports := link.right.reports

def Ends.add (ends : Ends) (verdict report : FileTransferStatus) : Ends where
  verdicts := ends.verdicts ++ [verdict]
  reports := ends.reports ++ [report]

/-- How a step of the link shows at the two ends. -/
inductive EndsEffect (link : Link) (label : LinkLabel) (next : Link) : Prop
  | silent :
      (∀ comparisons,
        noteComparison link label next comparisons = comparisons) →
      link.receiveWorks label = true →
      (link.right.receiver = .stopped → next.right.receiver = .stopped) →
      next.ends = link.ends →
      EndsEffect link label next
  | judged (comparison : Comparison) :
      (∀ comparisons,
        noteComparison link label next comparisons =
          comparisons ++ [comparison]) →
      link.receiveWorks label = true →
      link.right.receiver ≠ .stopped →
      IsDigest comparison.expectedHash →
      comparison.verifying.Computed →
      next.ends = link.ends.add comparison.status comparison.status →
      EndsEffect link label next
  | uncommitted (comparison : Comparison) :
      (∀ comparisons,
        noteComparison link label next comparisons =
          comparisons ++ [comparison]) →
      link.receiveWorks label = false →
      link.right.receiver ≠ .stopped →
      next.right.receiver = .stopped →
      comparison.passes = true →
      next.ends = link.ends.add .hashFailed .hashFailed →
      EndsEffect link label next
  | gaveUp :
      (∀ comparisons,
        noteComparison link label next comparisons = comparisons) →
      link.receiveWorks label = false →
      link.right.receiver ≠ .stopped →
      next.right.receiver = .stopped →
      next.ends = link.ends.add .hashFailed .etc →
      EndsEffect link label next

theorem comparison?_eq_some
    {peer : Peer} {label : RecvLabel} {comparison : Comparison}
    (compares : peer.comparison? label = some comparison) :
    peer.receiver = .verifying comparison.verifying := by
  unfold Peer.comparison? at compares
  split at compares
  · rename_i verifying expectedHash rest active queued
    cases compares
    exact active
  · cases compares

/-- The receiver has told the sender and its own application. -/
theorem ends_of_told
    {link : Link} {left right : Peer} {message : ControlMessage}
    {verdict report : FileTransferStatus} {hashQueue : List String}
    (told :
      right.finalSide =
        (({ link.right.finalSide with
            hashQueue := hashQueue }).tell message).report report)
    (reports : left.reports = link.left.reports)
    (isVerdict : message.report? = some verdict)
    (wanted : verdict ≠ .rejectedUnwanted) :
    Link.ends ⟨left, right⟩ = link.ends.add verdict report := by
  have finals : right.finals = link.right.finals ++ [message] :=
    congrArg FinalSide.finals told
  have rightReports : right.reports = link.right.reports ++ [report] :=
    congrArg FinalSide.reports told
  simp [Link.ends, Link.verdicts, Ends.add, finals, rightReports, reports,
    isVerdict, wanted, ← List.append_assoc]

theorem recv_ends
    {link : Link} (informed : link.Informed) {label : RecvLabel}
    {left right : Peer} (reports : left.reports = link.left.reports)
    (taken : link.right.recvStep label = some right) :
    EndsEffect link (.rightRecv label) ⟨left, right⟩ := by
  have running : link.right.receiver ≠ .stopped := by
    intro stopped
    unfold Peer.recvStep at taken
    rw [stopped] at taken
    cases label <;> cases taken
  cases recvStep_verdict taken with
  | silent noCompare works same =>
      refine
        EndsEffect.silent ?_ works
          (fun stopped => absurd stopped running) ?_
      · intro comparisons
        rw [noteComparison, noCompare]
        exact List.append_nil comparisons
      · have finals : right.finals = link.right.finals :=
          congrArg FinalSide.finals same
        have rightReports : right.reports = link.right.reports :=
          congrArg FinalSide.reports same
        simp [Link.ends, Link.verdicts, finals, rightReports, reports]
  | judged comparison rest message compares works queued isReport _ told =>
      refine
        EndsEffect.judged comparison ?_ works running ?_ ?_
          (ends_of_told told reports isReport ?_)
      · intro comparisons
        rw [noteComparison, compares]
        rfl
      · apply informed.queued
        rw [queued]
        exact List.mem_cons_self
      · exact informed.computed _ (comparison?_eq_some compares)
      · unfold Comparison.status
        split <;> nofun
  | uncommitted comparison rest compares fails _ passes stopped told =>
      refine
        EndsEffect.uncommitted comparison ?_ fails running stopped passes
          (ends_of_told told reports rfl nofun)
      intro comparisons
      rw [noteComparison, compares]
      rfl
  | gaveUp noCompare fails stopped told =>
      refine
        EndsEffect.gaveUp ?_ fails running stopped
          (@ends_of_told _ _ _ _ _ _ link.right.hashQueue told reports rfl
            nofun)
      intro comparisons
      rw [noteComparison, noCompare]
      exact List.append_nil comparisons

theorem linkStep_ends
    {link next : Link} {label : LinkLabel} (informed : link.Informed)
    (stepped : linkStep link label = some next) :
    EndsEffect link label next := by
  have leftMoves {left : Peer}
      (reports : left.reports = link.left.reports) :
      Link.ends ⟨left, link.right⟩ = link.ends := by
    simp [Link.ends, Link.verdicts, reports]
  have quiet {label : LinkLabel} {left right : Peer}
      (loops :
        ∀ comparisons,
          noteComparison link label ⟨left, right⟩ comparisons =
            comparisons)
      (works : link.receiveWorks label = true)
      (receiver : right.receiver = link.right.receiver) :
      Link.ends ⟨left, right⟩ = link.ends →
        EndsEffect link label ⟨left, right⟩ :=
    EndsEffect.silent loops works receiver.trans
  cases linkStep_effect stepped with
  | leftCommand command faults left sends taken =>
      obtain ⟨side, _, _⟩ := loopStep_finalSide rfl taken
      rw [after_sends _ faults sends] at side
      exact
        quiet (fun _ => rfl) rfl rfl
          (leftMoves (congrArg FinalSide.reports side))
  | leftControl faults letter rest left arrived taken =>
      have reports := control_reports taken
      refine quiet (fun _ => rfl) rfl rfl ?_
      simp only [Link.ends, Link.verdicts, reports, filterMap_finals,
        arrived, Peer.withOutbox, List.filterMap_cons]
      cases letter.message.report? <;> simp [Peer.reports]
  | leftEnds reason left taken =>
      obtain ⟨side, _, _⟩ := loopStep_finalSide rfl taken
      exact
        quiet (fun _ => rfl) rfl rfl
          (leftMoves (congrArg FinalSide.reports side))
  | leftSend label left taken =>
      exact
        quiet (fun _ => rfl) rfl rfl
          (leftMoves (sendStep_reports informed.inline taken))
  | rightCommand command faults right receives taken =>
      obtain ⟨side, _, receiver⟩ := loopStep_finalSide rfl taken
      refine quiet (fun _ => rfl) rfl receiver ?_
      have reports := congrArg FinalSide.reports side
      have finals := congrArg FinalSide.finals side
      cases command <;>
        simp_all [Link.ends, Link.verdicts, Peer.finalSide,
          FinalSide.after, FinalSide.tell, ControlMessage.report?]
  | rightControl faults letter rest right arrived taken =>
      obtain ⟨side, _, receiver⟩ := loopStep_finalSide rfl taken
      obtain ⟨noReport, _, _⟩ := informed.arrives arrived
      refine quiet (fun _ => rfl) rfl receiver ?_
      have reports : right.reports = link.right.reports ++ _ :=
        congrArg FinalSide.reports side
      have finals : right.finals = link.right.finals :=
        congrArg FinalSide.finals side
      rw [noReport] at reports
      simp [Link.ends, Link.verdicts, Peer.withOutbox, Peer.reports,
        finals] at reports ⊢
      exact reports
  | rightEnds reason right taken =>
      obtain ⟨side, _, receiver⟩ := loopStep_finalSide rfl taken
      refine quiet (fun _ => rfl) rfl receiver ?_
      have reports : right.reports = link.right.reports :=
        congrArg FinalSide.reports side
      have finals : right.finals = link.right.finals :=
        congrArg FinalSide.finals side
      simp [Link.ends, Link.verdicts, finals, reports]
  | received chunk rest right _ taken =>
      exact @recv_ends _ informed _ (link.left.withFileOut rest) _ rfl taken
  | rightRecv label right _ taken => exact recv_ends informed rfl taken

theorem hashOk_sha256Hex (sent content : List UInt8) :
    hashOk (sha256Hex sent) (sha256Hex content) = true ↔
      sha256Hex content = sha256Hex sent := by
  have skips : sha256Hex sent ≠ "SKIP" := by
    intro same
    have digits := length_sha256Hex sent
    rw [same] at digits
    exact absurd digits (by decide)
  simp [hashOk, sha256Hex_ne_none, skips, eqIgnoreAsciiCase,
    toLower_sha256Hex, String.toList_inj]

/-- A comparison that does not pass is one of two hashes. -/
theorem mismatch_of_hashFailed
    {comparison : Comparison} (digest : IsDigest comparison.expectedHash)
    (computed : comparison.verifying.Computed)
    (fails : comparison.status = .hashFailed) :
    comparison.Mismatch := by
  have differs : comparison.passes = false := by
    apply Bool.eq_false_of_not_eq_true
    intro passes
    rw [Comparison.status, if_pos passes] at fails
    cases fails
  unfold Comparison.passes at differs
  rcases digest with isNone | ⟨sent, isSent⟩
  · rw [isNone] at differs
    cases differs
  · rcases computed with isNone | isHash
    · rw [isNone, hashOk] at differs
      simp at differs
    · refine ⟨sent, isSent, isHash, fun same => ?_⟩
      rw [isSent, isHash,
        (hashOk_sha256Hex _ _).mpr same.symm] at differs
      cases differs

theorem Comparison.Mismatch.fails
    {comparison : Comparison} (mismatch : comparison.Mismatch) :
    comparison.passes = false := by
  obtain ⟨sent, isSent, isHash, differ⟩ := mismatch
  apply Bool.eq_false_of_not_eq_true
  rw [Comparison.passes, isSent, isHash, hashOk_sha256Hex]
  exact fun same => differ same.symm

/-- Every verdict so far stands for a comparison. -/
structure Judged (watched : Link × List Comparison) : Prop where
  informed : watched.1.Informed
  verdicts :
    watched.1.verdicts = watched.2.map Comparison.status
  reports :
    watched.1.right.reports = watched.2.map Comparison.status
  digests :
    ∀ comparison ∈ watched.2,
      IsDigest comparison.expectedHash ∧ comparison.verifying.Computed

theorem Judged.agree
    {watched : Link × List Comparison} (judged : Judged watched) :
    ReportsAgree watched.1.verdicts watched.1.right.reports watched.2 := by
  constructor
  · intro position status isVerdict isFailure
    rw [judged.verdicts, List.getElem?_map] at isVerdict
    obtain ⟨comparison, isComparison, isStatus⟩ :=
      Option.map_eq_some_iff.mp isVerdict
    have fails : comparison.status = .hashFailed := by
      rw [isStatus]
      cases status <;> first | rfl | cases isFailure
    obtain ⟨digest, computed⟩ :=
      judged.digests comparison (List.mem_of_getElem? isComparison)
    exact
      ⟨comparison, isComparison,
        mismatch_of_hashFailed digest computed fails⟩
  · rw [judged.verdicts, judged.reports]

/-- The receive task has left on an error. -/
structure LeftOnError (watched : Link × List Comparison) : Prop where
  informed : watched.1.Informed
  stopped : watched.1.right.receiver = .stopped
  disagree :
    ¬ReportsAgree watched.1.verdicts watched.1.right.reports watched.2

theorem judged_step
    (source : Link × List Comparison) (label : LinkLabel)
    (target : Link × List Comparison) (judged : Judged source)
    (works : source.1.receiveWorks label = true)
    (stepped : comparingStep source label = some target) :
    Judged target := by
  obtain ⟨stepped, noted⟩ := withHistory_eq_some.mp stepped
  have informed := judged.informed.step stepped
  cases linkStep_ends judged.informed stepped with
  | silent noNote _ _ same =>
      rw [noNote] at noted
      refine ⟨informed, ?_, ?_, ?_⟩
      · rw [noted, ← judged.verdicts]
        exact congrArg Ends.verdicts same
      · rw [noted, ← judged.reports]
        exact congrArg Ends.reports same
      · rw [noted]
        exact judged.digests
  | judged comparison noNote _ _ digest computed told =>
      rw [noNote] at noted
      refine ⟨informed, ?_, ?_, ?_⟩
      · rw [noted, List.map_append, ← judged.verdicts]
        exact congrArg Ends.verdicts told
      · rw [noted, List.map_append, ← judged.reports]
        exact congrArg Ends.reports told
      · rw [noted]
        intro other member
        rcases List.mem_append.mp member with before | last
        · exact judged.digests other before
        · rw [List.mem_singleton.mp last]
          exact ⟨digest, computed⟩
  | uncommitted comparison _ fails =>
      rw [works] at fails
      cases fails
  | gaveUp _ fails =>
      rw [works] at fails
      cases fails

/-- Leaving on an error breaks the agreement: the sender takes the error for a
mismatch. -/
theorem judged_breaks
    (source : Link × List Comparison) (label : LinkLabel)
    (target : Link × List Comparison) (judged : Judged source)
    (fails : ¬source.1.receiveWorks label = true)
    (stepped : comparingStep source label = some target) :
    LeftOnError target := by
  obtain ⟨stepped, noted⟩ := withHistory_eq_some.mp stepped
  have informed := judged.informed.step stepped
  cases linkStep_ends judged.informed stepped with
  | silent _ works => exact absurd works fails
  | judged _ _ works => exact absurd works fails
  | uncommitted comparison noNote _ _ stopped passes told =>
      rw [noNote] at noted
      refine ⟨informed, stopped, fun agree => ?_⟩
      have verdicts :
          target.1.verdicts =
            source.2.map Comparison.status ++ [.hashFailed] := by
        rw [← judged.verdicts]
        exact congrArg Ends.verdicts told
      obtain ⟨other, isOther, mismatch⟩ :=
        agree.integrity source.2.length .hashFailed
          (by simp [verdicts]) rfl
      rw [noted, List.getElem?_concat_length] at isOther
      rw [← Option.some.inj isOther] at mismatch
      rw [mismatch.fails] at passes
      cases passes
  | gaveUp _ _ _ stopped told =>
      refine ⟨informed, stopped, fun agree => ?_⟩
      have verdicts :
          target.1.verdicts = source.1.verdicts ++ [.hashFailed] :=
        congrArg Ends.verdicts told
      have reports :
          target.1.right.reports = source.1.right.reports ++ [.etc] :=
        congrArg Ends.reports told
      have same := agree.same
      rw [verdicts, reports, judged.verdicts, judged.reports] at same
      cases List.append_cancel_left same

theorem leftOnError_stays
    (source : Link × List Comparison) (label : LinkLabel)
    (target : Link × List Comparison) (left : LeftOnError source)
    (stepped : comparingStep source label = some target) :
    LeftOnError target := by
  obtain ⟨stepped, noted⟩ := withHistory_eq_some.mp stepped
  have informed := left.informed.step stepped
  cases linkStep_ends left.informed stepped with
  | silent noNote _ stays same =>
      rw [noNote] at noted
      refine ⟨informed, stays left.stopped, ?_⟩
      have verdicts : target.1.verdicts = source.1.verdicts :=
        congrArg Ends.verdicts same
      have reports : target.1.right.reports = source.1.right.reports :=
        congrArg Ends.reports same
      rw [noted, verdicts, reports]
      exact left.disagree
  | judged _ _ _ running => exact absurd left.stopped running
  | uncommitted _ _ _ running => exact absurd left.stopped running
  | gaveUp _ _ running => exact absurd left.stopped running

/-- The sender reports an integrity failure only for two different hashes, and
both ends report the same, in exactly those runs in which the receive task
never leaves on an error of the file system or the stream. -/
theorem hash_failed_means_mismatch_exactly
    (leftFiles rightFiles : Files) (labels : List LinkLabel)
    (link : Link) (comparisons : List Comparison)
    (run :
      Run comparingStep anyStep (.initial leftFiles rightFiles, []) labels
        (link, comparisons)) :
    ReportsAgree link.verdicts link.right.reports comparisons ↔
      Throughout comparingStep (.initial leftFiles rightFiles, []) labels
        (fun watched label => watched.1.receiveWorks label = true) := by
  have initially :
      Judged (Link.initial leftFiles rightFiles, []) :=
    ⟨⟨nofun, nofun, nofun, nofun⟩, rfl, rfl, nofun⟩
  rcases run.intact_or_broken Judged LeftOnError judged_step judged_breaks
      leftOnError_stays initially with
    ⟨judged, works⟩ | ⟨left, fails⟩
  · exact iff_of_true judged.agree works
  · exact iff_of_false left.disagree fails

/-- A sender that has an empty file to offer. -/
def offeredFiles : Files := fun path =>
  if path = components "a" then some (.file []) else none

/-- The offer is accepted before it arrives, and the answer is taken. -/
def acceptedOffer : List LinkLabel :=
  [.leftCommand (.sendFile "a" false false) .none,
    .rightCommand (.acceptFile "in" false false) .none,
    .rightControl .none,
    .leftControl .none,
    .rightRecv .start]

/-- The receiver cannot create the parent directory: no hash was compared, and
the sender reports an integrity failure. -/
theorem refused_directory_is_integrity_failure :
    ∃ link : Link,
      Run comparingStep anyStep (.initial offeredFiles emptyFiles, [])
          (acceptedOffer ++
            [.rightRecv (.openTarget .parentFailed), .leftControl .none])
          (link, []) ∧
        link.left.reports.map FileTransferStatus.exitCode =
            [integrityFailure] ∧
          link.left.reports = [.hashFailed] ∧
            link.right.reports = [.etc] ∧
              ¬ReportsAgree link.left.reports link.right.reports [] := by
  have reached :
      (replay comparingStep (.initial offeredFiles emptyFiles, [])
          (acceptedOffer ++
            [.rightRecv (.openTarget .parentFailed),
              .leftControl .none])).map
          (fun watched =>
            (watched.2, watched.1.left.reports, watched.1.right.reports)) =
        some ([], [.hashFailed], [.etc]) := by
    decide +kernel
  obtain ⟨⟨link, comparisons⟩, ran, observed⟩ :=
    Option.map_eq_some_iff.mp reached
  obtain ⟨noComparison, observed⟩ := Prod.mk.inj observed
  obtain ⟨sender, receiver⟩ := Prod.mk.inj observed
  cases noComparison
  change link.left.reports = _ at sender
  change link.right.reports = _ at receiver
  refine ⟨link, run_of_replay ran, ?_, sender, receiver, ?_⟩
  · rw [sender]
    rfl
  · intro agree
    have same := agree.same
    rw [sender, receiver] at same
    cases same

/-- The second file completes the first, but has another digest: one comparison
fails, and both ends report that. -/
theorem hash_failed_means_mismatch_broken :
    ∃ (link : Link) (comparisons : List Comparison),
      link.verdicts = [.hashFailed] ∧
        comparisons.map Comparison.passes = [false] ∧
          (ReportsAgree link.verdicts link.right.reports comparisons ↔
            Throughout comparingStep (.initial brokenSources emptyFiles, [])
              (brokenOff true)
              (fun watched label =>
                watched.1.receiveWorks label = true)) := by
  have reached :
      (replay comparingStep (.initial brokenSources emptyFiles, [])
          (brokenOff true)).map
          (fun watched =>
            (watched.1.verdicts, watched.2.map Comparison.passes)) =
        some ([.hashFailed], [false]) := by
    decide +kernel
  obtain ⟨⟨link, comparisons⟩, ran, observed⟩ :=
    Option.map_eq_some_iff.mp reached
  obtain ⟨verdicts, mismatch⟩ := Prod.mk.inj observed
  exact
    ⟨link, comparisons, verdicts, mismatch,
      hash_failed_means_mismatch_exactly brokenSources emptyFiles _ link
        comparisons (run_of_replay ran)⟩

end Quiczilla
