import Mathlib.Algebra.BigOperators.Group.List.Basic
import Quiczilla.Peer

/-!
# The effort that a peer still has before it

Every letter, every offer, every job and every byte that is still on its way
stands for the steps that it can cause.  A handler takes the weight of its
letter and gives back less, and each step of a transfer task but a progress
report takes something away.
-/

namespace Quiczilla

open Foundation

/-! ## What is left to do -/

/-- A send that has not started. -/
def sendEffort (sourceSize : Nat) : Nat := 3 * sourceSize + 6

/-- A receive that has not started. -/
def receiveEffort (size : Nat) : Nat := 3 * size + 7

/-- A message weighs more than everything that its handler sets in motion. -/
def ControlMessage.effort (sourceSize : Nat) : ControlMessage → Nat
  | .metadata _ size _ _ => sendEffort sourceSize + receiveEffort size + 5
  | .resumeReady _ _ => sendEffort sourceSize + 3
  | .restartFromZero => sendEffort sourceSize + 2
  | .ready => sendEffort sourceSize + 1
  | .pause => 4
  | _ => 1

def SendStream.effort (sourceSize : Nat) (stream : SendStream) : Nat :=
  3 * (sourceSize - stream.position) + 2 * stream.chunks.length +
    stream.taken.isSome.toNat +
      (decide (stream.reader = .reading)).toNat + 2

def SendPhase.effort (sourceSize : Nat) : SendPhase → Nat
  | .idle => 0
  | .opening _ => 3 * sourceSize + 5
  | .streaming stream => stream.effort sourceSize

def RecvJob.effort (job : RecvJob) : Nat := receiveEffort job.fileSize

def Receiving.effort (current : Receiving) : Nat :=
  3 * (current.job.fileSize - current.totalReceived) +
    2 * current.chunks.length +
      current.loopEnd.isNone.toNat + current.writerAlive.toNat + 3

def RecvPhase.effort : RecvPhase → Nat
  | .idle => 0
  | .opening job => 3 * job.fileSize + 6
  | .receiving current => current.effort
  | .verifying _ => 2
  | .stopped => 0

/-- The offer that waits for its accept. -/
def Coordinator.offerEffort
    (sourceSize : Nat) (coordinator : Coordinator) : Nat :=
  match coordinator.offeredFileSize with
  | some size => sendEffort sourceSize + receiveEffort size + 4
  | none => 0

/-- The receive that waits for the reply to its resume offer. -/
def Coordinator.resumeEffort (coordinator : Coordinator) : Nat :=
  match coordinator.pendingResumeRecv with
  | some job => job.effort
  | none => 0

def Peer.effort (sourceSize : Nat) (peer : Peer) : Nat :=
  (peer.outbox.map fun letter => letter.message.effort sourceSize).sum +
    2 * peer.paused.toNat +
      peer.coordinator.offerEffort sourceSize +
        peer.coordinator.resumeEffort +
          peer.sendQueue.length * sendEffort sourceSize +
            peer.sender.effort sourceSize +
              (peer.recvQueue.map RecvJob.effort).sum +
                peer.receiver.effort

/-! ## The coordination loop -/

section Loop

variable (sourceSize : Nat) (peer : Peer)

theorem send_effort (message : ControlMessage) (offer : Nat) :
    (peer.send message offer).effort sourceSize =
      peer.effort sourceSize + message.effort sourceSize := by
  simp only [Peer.effort, Peer.send, List.map_append, List.map_cons,
    List.map_nil, List.sum_append, List.sum_cons, List.sum_nil]
  omega

theorem emit_effort (event : PeerEvent) :
    (peer.emit event).effort sourceSize = peer.effort sourceSize :=
  rfl

theorem touch_effort (paths : List UnixPath) (files : Files) :
    (peer.touch paths files).effort sourceSize = peer.effort sourceSize :=
  rfl

theorem triggerSend_effort (job : SendJob) :
    (peer.triggerSend job).effort sourceSize =
      peer.effort sourceSize + sendEffort sourceSize := by
  simp only [Peer.effort, Peer.triggerSend, List.length_append,
    List.length_singleton, Nat.add_mul, Nat.one_mul]
  omega

theorem triggerRecv_effort (job : RecvJob) :
    (peer.triggerRecv job).effort sourceSize =
      peer.effort sourceSize + job.effort := by
  simp only [Peer.effort, Peer.triggerRecv, List.map_append, List.map_cons,
    List.map_nil, List.sum_append, List.sum_cons, List.sum_nil]
  omega

theorem withPartPath_effort (path : Option UnixPath) :
    (peer.withPartPath path).effort sourceSize = peer.effort sourceSize :=
  rfl

theorem setPendingSend_effort (pending : Option PendingSend) :
    (peer.setPendingSend pending).effort sourceSize =
      peer.effort sourceSize :=
  rfl

theorem setPendingAccept_effort (accept : Option PendingAccept) :
    (peer.setPendingAccept accept).effort sourceSize =
      peer.effort sourceSize :=
  rfl

/-- Whoever pauses will have to resume. -/
theorem setPaused_effort (paused : Bool) :
    (peer.setPaused paused).effort sourceSize ≤
      peer.effort sourceSize + 2 := by
  have few : paused.toNat ≤ 1 := Bool.toNat_le paused
  simp only [Peer.effort, Peer.setPaused]
  omega

theorem unpaused_effort :
    (peer.setPaused false).effort sourceSize ≤ peer.effort sourceSize := by
  simp only [Peer.effort, Peer.setPaused, Bool.toNat_false]
  omega

theorem clearOffer_effort :
    peer.clearOffer.effort sourceSize +
        peer.coordinator.offerEffort sourceSize =
      peer.effort sourceSize := by
  simp only [Peer.effort, Peer.clearOffer, Coordinator.offerEffort,
    Coordinator.resumeEffort]
  omega

theorem clearResume_effort
    {job : RecvJob}
    (waits : peer.coordinator.pendingResumeRecv = some job) :
    peer.clearResume.effort sourceSize + job.effort =
      peer.effort sourceSize := by
  simp only [Peer.effort, Peer.clearResume, Coordinator.offerEffort,
    Coordinator.resumeEffort, waits]
  omega

theorem awaitResume_effort (job : RecvJob) :
    (peer.awaitResume job).effort sourceSize ≤
      peer.effort sourceSize + job.effort := by
  simp only [Peer.effort, Peer.awaitResume, Coordinator.offerEffort,
    Coordinator.resumeEffort]
  omega

theorem recordOffer_effort
    (name : String) (size : Nat) (resume checksum : Bool) (offer : Nat) :
    (peer.recordOffer name size resume checksum offer).effort sourceSize ≤
      peer.effort sourceSize + sendEffort sourceSize +
        receiveEffort size + 4 := by
  simp only [Peer.recordOffer, Peer.emit, Peer.effort,
    Coordinator.offerEffort, Coordinator.resumeEffort]
  omega

theorem truncateTo_effort
    (path : UnixPath) (length : Nat) (faults : Faults) :
    (peer.truncateTo path length faults).effort sourceSize =
      peer.effort sourceSize := by
  unfold Peer.truncateTo
  split
  · rfl
  · split <;> rfl

theorem acceptFresh_effort (job : RecvJob) :
    (peer.acceptFresh job).effort sourceSize =
      peer.effort sourceSize + job.effort + sendEffort sourceSize + 1 := by
  simp only [Peer.acceptFresh, send_effort, triggerRecv_effort,
    ControlMessage.effort]
  omega

theorem offerResume_effort
    (job : RecvJob) (path : UnixPath) (faults : Faults) :
    (peer.offerResume job path faults).effort sourceSize ≤
      peer.effort sourceSize + job.effort + sendEffort sourceSize + 3 := by
  have awaited := awaitResume_effort sourceSize peer job
  simp only [Peer.offerResume, send_effort, ControlMessage.effort]
  omega

theorem handleAccept_effort
    (accept : PendingAccept) (name : String) (size : Nat)
    (faults : Faults) :
    (peer.handleAccept accept name size faults).effort sourceSize ≤
      peer.effort sourceSize + sendEffort sourceSize +
        receiveEffort size + 3 := by
  have fresh (path : Option UnixPath) (job : RecvJob)
      (sized : job.fileSize = size) :
      ((peer.withPartPath path).acceptFresh job).effort sourceSize ≤
        peer.effort sourceSize + sendEffort sourceSize +
          receiveEffort size + 3 := by
    rw [acceptFresh_effort, withPartPath_effort, RecvJob.effort, sized]
    omega
  have resumed (other : Peer) (job : RecvJob) (path : UnixPath)
      (same : other.effort sourceSize = peer.effort sourceSize)
      (sized : job.fileSize = size) :
      (other.offerResume job path faults).effort sourceSize ≤
        peer.effort sourceSize + sendEffort sourceSize +
          receiveEffort size + 3 := by
    have offered := offerResume_effort sourceSize other job path faults
    rw [RecvJob.effort, sized, same] at offered
    omega
  simp only [Peer.handleAccept]
  split
  · split
    · split
      · split
        · apply resumed
          · rw [truncateTo_effort, withPartPath_effort]
          · rfl
        · exact fresh _ _ rfl
      · split
        · exact resumed _ _ _ rfl rfl
        · exact fresh _ _ rfl
    · exact fresh _ _ rfl
  · exact fresh _ _ rfl

theorem handleMetadata_effort
    (name : String) (size : Nat) (resume checksum : Bool) (offer : Nat)
    (faults : Faults) :
    (peer.handleMetadata name size resume checksum offer faults).effort
        sourceSize ≤
      peer.effort sourceSize + sendEffort sourceSize +
        receiveEffort size + 4 := by
  have recorded :=
    recordOffer_effort sourceSize peer name size resume checksum offer
  simp only [Peer.handleMetadata]
  split
  · rename_i accept waiting
    have accepts :=
      handleAccept_effort sourceSize
        (((peer.recordOffer name size resume checksum
          offer).setPendingAccept none).clearOffer)
        accept name size faults
    have cleared :=
      clearOffer_effort sourceSize
        ((peer.recordOffer name size resume checksum
          offer).setPendingAccept none)
    have isOffer :
        Coordinator.offerEffort sourceSize
            ((peer.recordOffer name size resume checksum
              offer).setPendingAccept none).coordinator =
          sendEffort sourceSize + receiveEffort size + 4 := rfl
    rw [setPendingAccept_effort] at cleared
    omega
  · exact recorded

theorem startPending_effort (pending : PendingSend) (offset : Nat) :
    (peer.startPending pending offset).effort sourceSize =
      peer.effort sourceSize + sendEffort sourceSize := by
  rw [Peer.startPending, triggerSend_effort, setPendingSend_effort]

theorem handleReady_effort :
    peer.handleReady.effort sourceSize ≤
      peer.effort sourceSize + sendEffort sourceSize := by
  unfold Peer.handleReady
  split
  · rw [startPending_effort]
  · omega

theorem handleResumeReady_effort
    (offset : Nat) (prefixHash : Option String) (faults : Faults) :
    (peer.handleResumeReady offset prefixHash faults).effort sourceSize ≤
      peer.effort sourceSize + sendEffort sourceSize + 2 := by
  unfold Peer.handleResumeReady
  split
  · split
    · split
      · simp only [startPending_effort, send_effort, ControlMessage.effort]
        omega
      · simp only [send_effort, setPendingSend_effort,
          ControlMessage.effort]
        omega
    · rw [startPending_effort]
      omega
  · omega

theorem handleResumeOk_effort :
    peer.handleResumeOk.effort sourceSize ≤ peer.effort sourceSize := by
  unfold Peer.handleResumeOk
  split
  · rename_i job waits
    rw [triggerRecv_effort, clearResume_effort sourceSize peer waits]
  · exact Nat.le_refl _

theorem recreatePart_effort (faults : Faults) :
    (peer.recreatePart faults).effort sourceSize =
      peer.effort sourceSize := by
  unfold Peer.recreatePart
  split
  · split
    · rfl
    · split <;> rfl
  · rfl

theorem handleRestart_effort (faults : Faults) :
    (peer.handleRestart faults).effort sourceSize ≤
      peer.effort sourceSize + sendEffort sourceSize + 1 := by
  unfold Peer.handleRestart
  split
  · rename_i job waits
    have cleared := clearResume_effort sourceSize peer waits
    have same :
        RecvJob.effort { job with resumeOffset := 0 } = job.effort := rfl
    rw [acceptFresh_effort, recreatePart_effort, same]
    omega
  · omega

/-- Handling a letter takes its weight and gives back less. -/
theorem handleControl_effort (letter : Letter) (faults : Faults) :
    (peer.handleControl letter faults).effort sourceSize <
      peer.effort sourceSize + letter.message.effort sourceSize := by
  obtain ⟨message, offer⟩ := letter
  change (peer.dispatch ⟨message, offer⟩ faults).effort sourceSize < _
  cases message with
  | metadata name size resume checksum =>
      have handled :=
        handleMetadata_effort sourceSize peer name size resume checksum
          offer faults
      simp only [Peer.dispatch, ControlMessage.effort]
      omega
  | ready =>
      have handled := handleReady_effort sourceSize peer
      simp only [Peer.dispatch, ControlMessage.effort]
      omega
  | resumeReady offset prefixHash =>
      have handled :=
        handleResumeReady_effort sourceSize peer offset prefixHash faults
      simp only [Peer.dispatch, ControlMessage.effort]
      omega
  | resumeOk =>
      have handled := handleResumeOk_effort sourceSize peer
      simp only [Peer.dispatch, ControlMessage.effort]
      omega
  | restartFromZero =>
      have handled := handleRestart_effort sourceSize peer faults
      simp only [Peer.dispatch, ControlMessage.effort]
      omega
  | pause =>
      have handled := setPaused_effort sourceSize peer true
      simp only [Peer.dispatch, emit_effort, ControlMessage.effort]
      omega
  | resume =>
      have handled := unpaused_effort sourceSize peer
      simp only [Peer.dispatch, emit_effort, ControlMessage.effort]
      omega
  | _ => exact Nat.lt_succ_self _

end Loop

/-! ## The transfer tasks -/

section Tasks

variable {sourceSize : Nat} {peer next : Peer}

theorem withStream_effort (stream : SendStream) :
    (peer.withStream stream).effort sourceSize +
        peer.sender.effort sourceSize =
      peer.effort sourceSize + stream.effort sourceSize := by
  simp only [Peer.effort, Peer.withStream, SendPhase.effort]
  omega

theorem stopSending_effort (remaining : List UInt8) :
    (peer.stopSending remaining).effort sourceSize +
        peer.sender.effort sourceSize =
      peer.effort sourceSize := by
  simp only [Peer.effort, Peer.stopSending, SendPhase.effort]
  omega

/-- A send that stops has nothing before it. -/
theorem stopped_effort
    {other : Peer} {remaining : List UInt8}
    (busy : 0 < peer.sender.effort sourceSize)
    (same :
      other.effort sourceSize =
        (peer.stopSending remaining).effort sourceSize) :
    other.effort sourceSize < peer.effort sourceSize := by
  have stopped := @stopSending_effort sourceSize peer remaining
  rw [← same] at stopped
  omega

theorem begin_effort (job : SendJob) (totalBytes : Nat) :
    (job.begin totalBytes).effort sourceSize ≤ 3 * sourceSize + 3 := by
  simp only [SendStream.effort, SendJob.begin, List.length_nil,
    Option.isSome_none, decide_true, Bool.toNat_true, Bool.toNat_false]
  omega

theorem openSource_effort
    {job : SendJob} {outcome : OpenSource}
    (opening : peer.sender = .opening job)
    (stepped : peer.openSource job outcome = some next) :
    next.effort sourceSize < peer.effort sourceSize := by
  have busy : 0 < peer.sender.effort sourceSize := by
    rw [opening]
    exact Nat.succ_pos _
  unfold Peer.openSource at stepped
  split at stepped
  · rename_i metadataFails length measured
    cases stepped
    have begins :=
      @begin_effort sourceSize job (if metadataFails then 0 else length)
    have streams :=
      @withStream_effort sourceSize peer
        (job.begin (if metadataFails then 0 else length))
    rw [opening, SendPhase.effort] at streams
    omega
  · cases stepped
  · split at stepped <;> cases stepped
    exact @stopped_effort _ _ _ [] busy rfl
  · cases stepped
    exact @stopped_effort _ _ _ [] busy rfl

theorem streaming_effort
    {stream : SendStream} {label : SendLabel}
    (streaming : peer.sender = .streaming stream)
    (sized : (peer.sourceContent stream.job).length ≤ sourceSize)
    (works : label ≠ .report)
    (stepped : peer.sendStep label = some next) :
    next.effort sourceSize < peer.effort sourceSize := by
  -- The task goes on with less to do, or stops.
  have streams {other : SendStream}
      (lower : other.effort sourceSize < stream.effort sourceSize) :
      (peer.withStream other).effort sourceSize <
        peer.effort sourceSize := by
    have next := @withStream_effort sourceSize peer other
    rw [streaming, SendPhase.effort] at next
    omega
  have busy : 0 < peer.sender.effort sourceSize := by
    rw [streaming]
    exact Nat.succ_pos _
  unfold Peer.sendStep at stepped
  rw [streaming] at stepped
  cases label with
  | start => cases stepped
  | openSource outcome => cases stepped
  | readChunk length =>
      simp only [Peer.readChunk] at stepped
      split at stepped <;> cases stepped
      rename_i readable
      obtain ⟨-, positive, -, full, -⟩ := readable
      rw [List.length_take, List.length_drop] at full
      apply streams
      simp only [SendStream.effort, List.length_append,
        List.length_singleton]
      omega
  | readEnd =>
      simp only [Peer.readEnd] at stepped
      split at stepped
      · split at stepped <;> cases stepped
        rename_i ended
        apply streams
        simp [SendStream.effort, ended.1]
      · cases stepped
  | readFails =>
      simp only at stepped
      split at stepped <;> cases stepped
      rename_i reading
      apply streams
      simp [SendStream.effort, reading]
  | takeChunk =>
      simp only at stepped
      split at stepped <;> cases stepped
      rename_i chunk rest free queued
      apply streams
      simp only [SendStream.effort, free, queued, List.length_cons,
        Option.isSome_some, Option.isSome_none, Bool.toNat_true,
        Bool.toNat_false]
      omega
  | writeChunk =>
      simp only [Peer.writeChunk] at stepped
      split at stepped
      · rename_i chunk taken
        split at stepped
        · cases stepped
        · split at stepped <;> cases stepped
          · exact @stopped_effort _ _ _ [] busy rfl
          · apply streams
            simp [SendStream.effort, taken]
      · cases stepped
  | writeStops length =>
      simp only [Peer.writeStops] at stepped
      split at stepped
      · split at stepped <;> cases stepped
        exact @stopped_effort _ _ _ [] busy rfl
      · cases stepped
  | report => exact absurd rfl works
  | finish rehashFails =>
      simp only [Peer.finishSending] at stepped
      split at stepped
      · split at stepped
        · cases stepped
        · cases stepped
          exact @stopped_effort _ _ _ [] busy rfl
        · rename_i inlineHash ended
          cases stepped
          have stopped := @stopSending_effort sourceSize peer []
          have told :
              ControlMessage.effort sourceSize
                  (.fileSent
                    (peer.finalHash stream inlineHash rehashFails)) =
                1 :=
            rfl
          have same :
              (Peer.emit { peer with sender := .idle }
                  (.transferProgress stream.bytesTransferred
                    stream.totalBytes true)).effort sourceSize =
                (peer.stopSending []).effort sourceSize := rfl
          rw [streaming, SendPhase.effort, SendStream.effort] at stopped
          rw [send_effort, told, same]
          omega
      · cases stepped

/-- Every step of the send task but a report leaves less to do. -/
theorem sendStep_effort
    {label : SendLabel}
    (sized :
      ∀ stream, peer.sender = .streaming stream →
        (peer.sourceContent stream.job).length ≤ sourceSize)
    (works : label ≠ .report)
    (stepped : peer.sendStep label = some next) :
    next.effort sourceSize < peer.effort sourceSize := by
  cases phase : peer.sender with
  | idle =>
      unfold Peer.sendStep at stepped
      rw [phase] at stepped
      cases label <;> simp only at stepped <;> try cases stepped
      split at stepped <;> cases stepped
      rename_i job rest queued
      simp only [Peer.effort, phase, queued, SendPhase.effort,
        List.length_cons, Nat.add_mul, Nat.one_mul, sendEffort]
      omega
  | opening job =>
      unfold Peer.sendStep at stepped
      rw [phase] at stepped
      cases label <;> simp only at stepped <;> try cases stepped
      exact openSource_effort phase stepped
  | streaming stream =>
      exact streaming_effort phase (sized stream phase) works stepped

theorem sendStep_report_effort
    (stepped : peer.sendStep .report = some next) :
    next.effort sourceSize = peer.effort sourceSize := by
  unfold Peer.sendStep at stepped
  cases phase : peer.sender with
  | streaming stream =>
      rw [phase] at stepped
      cases stepped
      exact emit_effort sourceSize peer _
  | _ =>
      rw [phase] at stepped
      cases stepped

/-- A report is free, and every other step of the send task is paid for. -/
theorem sendStep_pays
    {label : SendLabel}
    (sized :
      ∀ stream, peer.sender = .streaming stream →
        (peer.sourceContent stream.job).length ≤ sourceSize)
    (stepped : peer.sendStep label = some next) :
    next.effort sourceSize + (decide (label ≠ .report)).toNat ≤
      peer.effort sourceSize := by
  by_cases isReport : label = .report
  · rw [isReport] at stepped ⊢
    rw [sendStep_report_effort stepped]
    exact Nat.le_refl _
  · have lower := sendStep_effort sized isReport stepped
    rw [decide_eq_true isReport]
    exact lower

theorem withReceiving_effort (current : Receiving) :
    (peer.withReceiving current).effort sourceSize +
        peer.receiver.effort =
      peer.effort sourceSize + current.effort := by
  simp only [Peer.effort, Peer.withReceiving, RecvPhase.effort]
  omega

theorem failReceive_effort (status : FileTransferStatus) :
    (peer.failReceive status).effort sourceSize + peer.receiver.effort =
      peer.effort sourceSize + 1 := by
  have told :=
    send_effort sourceSize { peer with receiver := .stopped }
      .receivedFileFailed 0
  simp only [Peer.failReceive, emit_effort, told, ControlMessage.effort]
  simp only [Peer.effort, RecvPhase.effort]
  omega

/-- The report of a failure costs less than any step of the task. -/
theorem failed_effort
    {other : Peer} {status : FileTransferStatus}
    (busy : 1 < peer.receiver.effort)
    (same :
      other.effort sourceSize =
        (peer.failReceive status).effort sourceSize) :
    other.effort sourceSize < peer.effort sourceSize := by
  have failed := @failReceive_effort sourceSize peer status
  rw [← same] at failed
  omega

theorem completeReceive_effort
    (verifying : Verifying) (expectedHash : String) :
    (peer.completeReceive verifying expectedHash).effort sourceSize +
        peer.receiver.effort =
      peer.effort sourceSize + 1 := by
  simp only [Peer.completeReceive, emit_effort, send_effort,
    ControlMessage.effort]
  simp only [Peer.effort, RecvPhase.effort]
  omega

theorem receiveBegin_effort (job : RecvJob) :
    job.begin.effort ≤ 3 * job.fileSize + 5 := by
  simp only [Receiving.effort, RecvJob.begin, List.length_nil,
    Option.isNone_none, Bool.toNat_true]
  omega

theorem openTarget_effort
    {job : RecvJob} {outcome : OpenTarget}
    (opening : peer.receiver = .opening job)
    (stepped : peer.openTarget job outcome = some next) :
    next.effort sourceSize < peer.effort sourceSize := by
  have busy : 1 < peer.receiver.effort := by
    rw [opening, RecvPhase.effort]
    omega
  unfold Peer.openTarget at stepped
  split at stepped
  · cases stepped
    exact @failed_effort _ _ _ .etc busy rfl
  · cases stepped
    exact @failed_effort _ _ _ .etc busy rfl
  · split at stepped
    · obtain ⟨opened, -, rfl⟩ := Option.map_eq_some_iff.mp stepped
      exact @failed_effort _ _ _ .etc busy rfl
    · cases stepped
  · obtain ⟨opened, -, rfl⟩ := Option.map_eq_some_iff.mp stepped
    have receives :=
      @withReceiving_effort sourceSize
        (peer.touch [job.targetWritePath] opened) job.begin
    have isOpening :
        (peer.touch [job.targetWritePath] opened).receiver =
          .opening job := opening
    have begins := receiveBegin_effort job
    rw [touch_effort, isOpening, RecvPhase.effort] at receives
    omega
  · cases stepped

theorem receiving_effort
    {current : Receiving} {label : RecvLabel}
    (active : peer.receiver = .receiving current)
    (works : label ≠ .report)
    (stepped : peer.recvStep label = some next) :
    next.effort sourceSize < peer.effort sourceSize := by
  -- The task goes on with less to do, or fails.
  have receives {other : Peer} {after : Receiving}
      (same :
        other.effort sourceSize =
          (peer.withReceiving after).effort sourceSize)
      (lower : after.effort < current.effort) :
      other.effort sourceSize < peer.effort sourceSize := by
    have next := @withReceiving_effort sourceSize peer after
    rw [← same, active, RecvPhase.effort] at next
    omega
  have least : 3 ≤ current.effort := Nat.le_add_left 3 _
  unfold Peer.recvStep at stepped
  rw [active] at stepped
  cases label with
  | start => cases stepped
  | openTarget outcome => cases stepped
  | receive chunk =>
      simp only [Peer.receive] at stepped
      split at stepped <;> cases stepped
      rename_i taken
      obtain ⟨running, missing, -, nonempty, -⟩ := taken
      have positive := List.length_pos_of_ne_nil nonempty
      refine receives rfl ?_
      have ended (success : Option Bool) : success.isNone.toNat ≤ 1 :=
        Bool.toNat_le _
      have less := ended (if peer.cancelled then some false else none)
      simp only [Receiving.effort, running, List.length_append,
        List.length_singleton, Option.isNone_none, Bool.toNat_true]
      omega
  | receiveFails =>
      simp only [Peer.receiveFails] at stepped
      split at stepped <;> cases stepped
      rename_i running
      refine receives rfl ?_
      simp [Receiving.effort, running.1]
  | endReceive =>
      simp only [Peer.endReceive] at stepped
      split at stepped <;> cases stepped
      rename_i ended
      refine receives rfl ?_
      simp [Receiving.effort, ended.1]
  | writeChunk =>
      simp only [Peer.storeChunk] at stepped
      split at stepped <;> cases stepped
      rename_i chunk rest alive queued
      refine receives rfl ?_
      simp only [Receiving.effort, queued, List.length_cons]
      omega
  | writeFails length =>
      simp only [Peer.storeFails] at stepped
      split at stepped
      · rename_i chunk rest alive queued
        split at stepped <;> cases stepped
        refine receives rfl ?_
        simp [Receiving.effort, alive]
      · cases stepped
  | report => exact absurd rfl works
  | closeFile flushFails rehashFails =>
      have failed := @failReceive_effort sourceSize peer .etc
      rw [active, RecvPhase.effort] at failed
      simp only [Peer.closeFile] at stepped
      split at stepped
      · cases stepped
      · split at stepped
        · cases stepped
          omega
        · split at stepped
          · cases stepped
          · split at stepped <;> cases stepped
            · omega
            · simp only [Peer.effort, active, RecvPhase.effort]
              omega
  | verify renameFails => cases stepped
  | hashClosed => cases stepped

theorem verify_effort
    {verifying : Verifying} {renameFails : Bool}
    (active : peer.receiver = .verifying verifying)
    (stepped : peer.verify verifying renameFails = some next) :
    next.effort sourceSize < peer.effort sourceSize := by
  have fails {other before : Peer}
      (failed : other = before.failReceive .hashFailed)
      (same : before.effort sourceSize = peer.effort sourceSize)
      (isActive : before.receiver = .verifying verifying) :
      other.effort sourceSize < peer.effort sourceSize := by
    have after := @failReceive_effort sourceSize before .hashFailed
    rw [isActive, RecvPhase.effort, same] at after
    rw [failed]
    omega
  have completes {other before : Peer} {expectedHash : String}
      (completed : other = before.completeReceive verifying expectedHash)
      (same : before.effort sourceSize = peer.effort sourceSize)
      (isActive : before.receiver = .verifying verifying) :
      other.effort sourceSize < peer.effort sourceSize := by
    have after :=
      @completeReceive_effort sourceSize before verifying expectedHash
    rw [isActive, RecvPhase.effort, same] at after
    rw [completed]
    omega
  unfold Peer.verify at stepped
  split at stepped
  · rename_i expectedHash rest queued
    simp only at stepped
    split at stepped
    · split at stepped
      · rename_i committed commit
        unfold Peer.commit at commit
        split at commit
        · split at commit
          · cases commit
          · obtain ⟨renamed, -, rfl⟩ := Option.map_eq_some_iff.mp commit
            exact completes (Option.some.inj stepped).symm rfl active
        · cases commit
          exact completes (Option.some.inj stepped).symm rfl active
      · exact fails (Option.some.inj stepped).symm rfl active
    · exact fails (Option.some.inj stepped).symm rfl active
  · cases stepped

/-- Every step of the receive task but a report leaves less to do. -/
theorem recvStep_effort
    {label : RecvLabel} (works : label ≠ .report)
    (stepped : peer.recvStep label = some next) :
    next.effort sourceSize < peer.effort sourceSize := by
  cases phase : peer.receiver with
  | idle =>
      unfold Peer.recvStep at stepped
      rw [phase] at stepped
      cases label <;> simp only at stepped <;> try cases stepped
      split at stepped <;> cases stepped
      rename_i job rest queued
      simp only [Peer.effort, phase, queued, RecvPhase.effort,
        List.map_cons, List.sum_cons, RecvJob.effort, receiveEffort]
      omega
  | opening job =>
      unfold Peer.recvStep at stepped
      rw [phase] at stepped
      cases label <;> simp only at stepped <;> try cases stepped
      exact openTarget_effort phase stepped
  | receiving current => exact receiving_effort phase works stepped
  | verifying verifying =>
      unfold Peer.recvStep at stepped
      rw [phase] at stepped
      cases label <;> simp only at stepped <;> try cases stepped
      · exact verify_effort phase stepped
      · split at stepped <;> cases stepped
        simp only [Peer.effort, phase, RecvPhase.effort]
        omega
  | stopped =>
      unfold Peer.recvStep at stepped
      rw [phase] at stepped
      cases label <;> cases stepped

theorem recvStep_report_effort
    (stepped : peer.recvStep .report = some next) :
    next.effort sourceSize = peer.effort sourceSize := by
  unfold Peer.recvStep at stepped
  cases phase : peer.receiver with
  | receiving current =>
      rw [phase] at stepped
      cases stepped
      exact emit_effort sourceSize peer _
  | _ =>
      rw [phase] at stepped
      cases stepped

/-- A report is free, and every other step of the receive task is paid for. -/
theorem recvStep_pays
    {label : RecvLabel} (stepped : peer.recvStep label = some next) :
    next.effort sourceSize + (decide (label ≠ .report)).toNat ≤
      peer.effort sourceSize := by
  by_cases isReport : label = .report
  · rw [isReport] at stepped ⊢
    rw [recvStep_report_effort stepped]
    exact Nat.le_refl _
  · have lower := @recvStep_effort sourceSize _ _ _ isReport stepped
    rw [decide_eq_true isReport]
    exact lower

end Tasks

/-! ## The commands -/

section Commands

variable (sourceSize : Nat) (peer : Peer)

/-- A command other than `SendFile` sets off at most a pause. -/
theorem handleCommand_effort
    {command : PeerCommand} (faults : Faults)
    (noSend :
      ∀ path checksum resume,
        command ≠ .sendFile path checksum resume) :
    (peer.handleCommand command faults).effort sourceSize ≤
      peer.effort sourceSize + 6 := by
  cases command with
  | sendFile path checksum resume =>
      exact absurd rfl (noSend path checksum resume)
  | acceptFile saveDir checksum resume =>
      have cleared := clearOffer_effort sourceSize peer
      simp only [Peer.handleCommand, Peer.handleAcceptFile]
      split
      · rename_i name size isName isSize
        have accepted :=
          handleAccept_effort sourceSize peer.clearOffer
            ⟨saveDir, checksum, resume⟩ name size faults
        rw [Coordinator.offerEffort, isSize] at cleared
        simp only at cleared
        omega
      · rw [setPendingAccept_effort]
        omega
  | rejectFile =>
      have cleared := clearOffer_effort sourceSize peer
      simp only [Peer.handleCommand, send_effort, ControlMessage.effort]
      omega
  | pause =>
      have paused := setPaused_effort sourceSize peer true
      simp only [Peer.handleCommand, emit_effort, send_effort,
        ControlMessage.effort]
      omega
  | resume =>
      have resumed := unpaused_effort sourceSize peer
      simp only [Peer.handleCommand, emit_effort, send_effort,
        ControlMessage.effort]
      omega
  | disconnect => exact Nat.le_add_right _ _

theorem announce_effort (pending : PendingSend) (size : Nat) :
    (peer.announce pending size).effort sourceSize =
      peer.effort sourceSize + sendEffort sourceSize +
        receiveEffort size + 5 := by
  simp only [Peer.announce, send_effort, emit_effort,
    ControlMessage.effort]
  simp only [Peer.effort, Coordinator.offerEffort,
    Coordinator.resumeEffort]
  omega

end Commands

end Quiczilla
