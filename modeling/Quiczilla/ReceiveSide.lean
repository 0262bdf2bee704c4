import Quiczilla.Peer
import Quiczilla.SendSide

/-!
# What a step can do to the receive side

The receive side of a peer is the part of its state that decides what happens
to files.  The relations below list everything that the coordination loop and
the file receive task can do to it, guards included, so that an invariant of
the receive side is a short case analysis.
-/

namespace Quiczilla

open Foundation

structure RecvSide where
  files : Files
  touched : List UnixPath
  pendingResumeRecv : Option RecvJob
  currentPartPath : Option UnixPath
  recvQueue : List RecvJob
  receiver : RecvPhase
  receipts : List Receipt

def Peer.recvSide (peer : Peer) : RecvSide where
  files := peer.files
  touched := peer.touched
  pendingResumeRecv := peer.coordinator.pendingResumeRecv
  currentPartPath := peer.coordinator.currentPartPath
  recvQueue := peer.recvQueue
  receiver := peer.receiver
  receipts := peer.receipts

/-- An accept of an offer, as `handle_accept` is called for it. -/
structure AppliedAccept where
  accept : PendingAccept
  name : String
  size : Nat
  deriving DecidableEq, Repr

def AppliedAccept.destPath (applied : AppliedAccept) : UnixPath :=
  destinationPath applied.accept.saveDir applied.name

def AppliedAccept.partPath (applied : AppliedAccept) : UnixPath :=
  getPartPath applied.destPath

def PeerLabel.message : PeerLabel → Option ControlMessage
  | .control letter _ => some letter.message
  | _ => none

def PeerLabel.faults : PeerLabel → Faults
  | .control _ faults => faults
  | .command _ faults => faults
  | _ => .none

/-- The `AcceptFile` that a step applies to an offer, if it does. -/
def Peer.applied (peer : Peer) : PeerLabel → Option AppliedAccept
  | .control ⟨.metadata name size _ _, _⟩ _ =>
      peer.coordinator.pendingAccept.map fun accept =>
        ⟨accept, name, size⟩
  | .command (.acceptFile saveDir checksum resume) _ =>
      match peer.coordinator.offeredFileName,
          peer.coordinator.offeredFileSize with
      | some name, some size => some ⟨⟨saveDir, checksum, resume⟩, name, size⟩
      | _, _ => none
  | _ => none

/-- The job that `handle_accept` derives, up to offset and staging. -/
def AppliedAccept.job
    (applied : AppliedAccept) (offset : Nat) (usePart : Bool)
    (offer : Nat) : RecvJob where
  destPath := applied.destPath
  fileSize := applied.size
  checksum := applied.accept.checksum
  resumeOffset := offset
  usePart := usePart
  offer := offer

@[simp]
theorem AppliedAccept.job_destPath
    (applied : AppliedAccept) (offset : Nat) (usePart : Bool)
    (offer : Nat) :
    (applied.job offset usePart offer).destPath = applied.destPath := by
  simp only [AppliedAccept.job]

/-- Accepting an offer starts a receive from byte zero, or announces how much
of an existing file can be kept. -/
inductive AcceptEffect
    (applied : AppliedAccept) (faults : Faults) (side : RecvSide) :
    RecvSide → Prop
  | small (offer : Nat) :
      applied.size < resumeThresholdBytes →
      AcceptEffect applied faults side
        { side with
          currentPartPath := none
          recvQueue := side.recvQueue ++ [applied.job 0 false offer] }
  | fresh (offer : Nat) :
      resumeThresholdBytes ≤ applied.size →
      AcceptEffect applied faults side
        { side with
          currentPartPath := some applied.partPath
          recvQueue := side.recvQueue ++ [applied.job 0 true offer] }
  | keepPart (offer existing : Nat) :
      resumeThresholdBytes ≤ applied.size →
      applied.accept.resume = true →
      0 < alignedOffset existing applied.size →
      (side.files.length? applied.partPath).getD 0 = existing →
      (faults.truncate = true ∨
        side.files.setLength applied.partPath
          (alignedOffset existing applied.size) = none) →
      AcceptEffect applied faults side
        { side with
          currentPartPath := some applied.partPath
          pendingResumeRecv :=
            some
              (applied.job (alignedOffset existing applied.size) true
                offer) }
  | cutPart (offer existing : Nat) (cut : Files) :
      resumeThresholdBytes ≤ applied.size →
      applied.accept.resume = true →
      0 < alignedOffset existing applied.size →
      (side.files.length? applied.partPath).getD 0 = existing →
      side.files.setLength applied.partPath
          (alignedOffset existing applied.size) = some cut →
      AcceptEffect applied faults side
        { side with
          files := cut
          touched := side.touched ++ [applied.partPath]
          currentPartPath := some applied.partPath
          pendingResumeRecv :=
            some
              (applied.job (alignedOffset existing applied.size) true
                offer) }
  | keepDest (offer : Nat) :
      resumeThresholdBytes ≤ applied.size →
      applied.accept.resume = true →
      side.files applied.partPath = none →
      side.files.isPresent applied.destPath = true →
      (side.files.length? applied.destPath).getD 0 = applied.size →
      AcceptEffect applied faults side
        { side with
          currentPartPath := some applied.partPath
          pendingResumeRecv :=
            some (applied.job applied.size false offer) }

theorem resumeThresholdBytes_pos : 0 < resumeThresholdBytes := by
  decide

theorem pos_of_alignedOffset
    {existing size : Nat} (positive : 0 < alignedOffset existing size) :
    0 < existing := by
  rcases Nat.eq_zero_or_pos existing with rfl | some
  · simp [alignedOffset] at positive
  · exact some

theorem alignedOffset_le (existing size : Nat) :
    alignedOffset existing size ≤ existing ∧
      alignedOffset existing size ≤ size := by
  unfold alignedOffset
  split
  · exact ⟨Nat.zero_le _, Nat.zero_le _⟩
  · rename_i fits
    exact ⟨Nat.div_mul_le_self _ _, Nat.le_of_not_lt fits⟩

theorem lengthOrZero_eq
    {peer : Peer} {path : UnixPath} {faults : Faults}
    (positive : 0 < peer.lengthOrZero path faults) :
    peer.lengthOrZero path faults =
      (peer.files.length? path).getD 0 := by
  unfold Peer.lengthOrZero at positive ⊢
  split at positive
  · exact absurd positive (Nat.lt_irrefl 0)
  · rename_i works
    rw [if_neg works]

/-- Keeping a staging file: the file is cut back, unless that fails. -/
theorem offerResume_effect
    {peer : Peer} (applied : AppliedAccept) {faults : Faults}
    {existing offer : Nat}
    (large : resumeThresholdBytes ≤ applied.size)
    (resume : applied.accept.resume = true)
    (positive : 0 < alignedOffset existing applied.size)
    (measured :
      (peer.files.length? applied.partPath).getD 0 = existing) :
    AcceptEffect applied faults peer.recvSide
      ((((peer.withPartPath (some applied.partPath)).truncateTo
          applied.partPath (alignedOffset existing applied.size)
          faults).offerResume
        (applied.job (alignedOffset existing applied.size) true offer)
        applied.partPath faults).recvSide) := by
  unfold Peer.truncateTo
  split
  · rename_i fails
    exact
      AcceptEffect.keepPart offer existing large resume positive measured
        (Or.inl fails)
  · split
    · rename_i cut succeeded
      exact
        AcceptEffect.cutPart offer existing cut large resume positive
          measured succeeded
    · rename_i refused
      exact
        AcceptEffect.keepPart offer existing large resume positive
          measured (Or.inr refused)

theorem handleAccept_effect
    (peer : Peer) (applied : AppliedAccept) (faults : Faults) :
    AcceptEffect applied faults peer.recvSide
      (peer.handleAccept applied.accept applied.name applied.size
        faults).recvSide := by
  obtain ⟨accept, name, size⟩ := applied
  simp only [Peer.handleAccept]
  split
  · rename_i large
    split
    · rename_i shouldResume
      have resume : accept.resume = true := by
        simpa using (Bool.and_eq_true_iff.mp shouldResume).2
      split
      · split
        · rename_i positive
          have measured := lengthOrZero_eq (pos_of_alignedOffset positive)
          exact
            offerResume_effect ⟨accept, name, size⟩ large resume
              positive measured.symm
        · exact AcceptEffect.fresh peer.coordinator.offeredNumber large
      · rename_i absent
        split
        · rename_i sameSize
          obtain ⟨present, sized⟩ := Bool.and_eq_true_iff.mp sameSize
          have lengthIs :
              peer.lengthOrZero (destinationPath accept.saveDir name)
                faults = size :=
            beq_iff_eq.mp sized
          have positive :
              0 < peer.lengthOrZero
                (destinationPath accept.saveDir name) faults := by
            rw [lengthIs]
            exact Nat.lt_of_lt_of_le resumeThresholdBytes_pos large
          refine
            AcceptEffect.keepDest peer.coordinator.offeredNumber large
              resume ?_ present ?_
          · have missing :
                peer.files
                  (getPartPath (destinationPath accept.saveDir name)) =
                  none := by
              simpa [FileStore.isPresent] using absent
            exact missing
          · exact (lengthOrZero_eq positive).symm.trans lengthIs
        · exact AcceptEffect.fresh peer.coordinator.offeredNumber large
    · exact AcceptEffect.fresh peer.coordinator.offeredNumber large
  · rename_i small
    exact
      AcceptEffect.small peer.coordinator.offeredNumber
        (Nat.lt_of_not_le small)

/-- Everything that the coordination loop can do to the receive side. -/
inductive LoopEffect (peer : Peer) (label : PeerLabel) :
    RecvSide → Prop
  | quiet :
      peer.applied label = none →
      LoopEffect peer label peer.recvSide
  | accepted (applied : AppliedAccept) (faults : Faults)
      (next : RecvSide) :
      peer.applied label = some applied →
      label.faults = faults →
      AcceptEffect applied faults peer.recvSide next →
      LoopEffect peer label next
  | resumed (job : RecvJob) :
      peer.applied label = none →
      label.message = some .resumeOk →
      peer.coordinator.pendingResumeRecv = some job →
      LoopEffect peer label
        { peer.recvSide with
          pendingResumeRecv := none
          recvQueue := peer.recvQueue ++ [job] }
  | restarted (job : RecvJob) :
      peer.applied label = none →
      label.message = some .restartFromZero →
      peer.coordinator.pendingResumeRecv = some job →
      LoopEffect peer label
        { peer.recvSide with
          pendingResumeRecv := none
          recvQueue :=
            peer.recvQueue ++ [{ job with resumeOffset := 0 }] }
  | recreated (job : RecvJob) (partPath : UnixPath) (created : Files) :
      peer.applied label = none →
      label.message = some .restartFromZero →
      peer.coordinator.pendingResumeRecv = some job →
      peer.coordinator.currentPartPath = some partPath →
      peer.files.create partPath = some created →
      LoopEffect peer label
        { peer.recvSide with
          files := created
          touched := peer.touched ++ [partPath]
          pendingResumeRecv := none
          recvQueue :=
            peer.recvQueue ++ [{ job with resumeOffset := 0 }] }

theorem handleMetadata_effect
    (peer : Peer) (name : String) (size : Nat) (resume checksum : Bool)
    (offer : Nat) (faults : Faults) :
    LoopEffect peer
      (.control ⟨.metadata name size resume checksum, offer⟩ faults)
      (peer.handleMetadata name size resume checksum offer
        faults).recvSide := by
  unfold Peer.handleMetadata
  split
  · rename_i accept waiting
    refine
      LoopEffect.accepted ⟨accept, name, size⟩ faults _ ?_ rfl ?_
    · rw [Peer.applied, waiting]
      rfl
    · exact
        handleAccept_effect
          (((peer.recordOffer name size resume checksum
            offer).setPendingAccept none).clearOffer)
          ⟨accept, name, size⟩ faults
  · rename_i noneWaiting
    refine LoopEffect.quiet ?_
    rw [Peer.applied, noneWaiting]
    rfl

theorem handleRestart_effect
    {peer : Peer} {letter : Letter} (faults : Faults)
    (message : letter.message = .restartFromZero) :
    LoopEffect peer (.control letter faults)
      (peer.handleRestart faults).recvSide := by
  obtain ⟨_, offer⟩ := letter
  cases message
  unfold Peer.handleRestart
  split
  · rename_i job resuming
    unfold Peer.recreatePart
    split
    · rename_i partPath current
      split
      · exact LoopEffect.restarted job rfl rfl resuming
      · split
        · rename_i created succeeded
          exact
            LoopEffect.recreated job partPath created rfl rfl resuming
              current succeeded
        · exact LoopEffect.restarted job rfl rfl resuming
    · exact LoopEffect.restarted job rfl rfl resuming
  · exact LoopEffect.quiet rfl

theorem handleResumeOk_effect
    {peer : Peer} {letter : Letter} (faults : Faults)
    (message : letter.message = .resumeOk) :
    LoopEffect peer (.control letter faults)
      peer.handleResumeOk.recvSide := by
  obtain ⟨_, offer⟩ := letter
  cases message
  unfold Peer.handleResumeOk
  split
  · rename_i job resuming
    exact LoopEffect.resumed job rfl rfl resuming
  · exact LoopEffect.quiet rfl

theorem handleReady_recvSide (peer : Peer) :
    peer.handleReady.recvSide = peer.recvSide := by
  unfold Peer.handleReady
  split <;> rfl

theorem handleResumeReady_recvSide
    (peer : Peer) (offset : Nat) (prefixHash : Option String)
    (faults : Faults) :
    (peer.handleResumeReady offset prefixHash faults).recvSide =
      peer.recvSide := by
  unfold Peer.handleResumeReady
  split
  · split
    · split <;> rfl
    · rfl
  · rfl

theorem handleControl_effect
    (peer : Peer) (letter : Letter) (faults : Faults) :
    LoopEffect peer (.control letter faults)
      (peer.handleControl letter faults).recvSide := by
  obtain ⟨message, offer⟩ := letter
  cases message with
  | metadata name size resume checksum =>
      exact
        handleMetadata_effect peer name size resume checksum offer faults
  | ready =>
      change LoopEffect _ _ peer.handleReady.recvSide
      rw [handleReady_recvSide]
      exact LoopEffect.quiet rfl
  | resumeReady offset prefixHash =>
      change
        LoopEffect _ _
          (peer.handleResumeReady offset prefixHash faults).recvSide
      rw [handleResumeReady_recvSide]
      exact LoopEffect.quiet rfl
  | resumeOk =>
      exact handleResumeOk_effect faults rfl
  | restartFromZero =>
      exact handleRestart_effect faults rfl
  | pause => exact LoopEffect.quiet rfl
  | resume => exact LoopEffect.quiet rfl
  | rejectedUnwanted => exact LoopEffect.quiet rfl
  | rejectedAlreadyReceiving => exact LoopEffect.quiet rfl
  | rejectedAlreadySending => exact LoopEffect.quiet rfl
  | fileSent hash => exact LoopEffect.quiet rfl
  | receivedFileOk => exact LoopEffect.quiet rfl
  | receivedFileFailed => exact LoopEffect.quiet rfl

theorem handleSendFile_recvSide
    (peer : Peer) (pending : PendingSend) (faults : Faults) :
    (peer.handleSendFile pending faults).recvSide = peer.recvSide := by
  unfold Peer.handleSendFile
  split
  · rfl
  · split <;> rfl

theorem handleAcceptFile_effect
    (peer : Peer) (accept : PendingAccept) (faults : Faults) :
    LoopEffect peer
      (.command
        (.acceptFile accept.saveDir accept.checksum accept.resume) faults)
      (peer.handleAcceptFile accept faults).recvSide := by
  unfold Peer.handleAcceptFile
  split
  · rename_i name size named sized
    refine
      LoopEffect.accepted ⟨accept, name, size⟩ faults _ ?_ rfl ?_
    · simp only [Peer.applied, named, sized]
    · exact
        handleAccept_effect peer.clearOffer ⟨accept, name, size⟩ faults
  · rename_i noOffer
    refine LoopEffect.quiet ?_
    unfold Peer.applied
    simp only

theorem handleCommand_effect
    (peer : Peer) (command : PeerCommand) (faults : Faults) :
    LoopEffect peer (.command command faults)
      (peer.handleCommand command faults).recvSide := by
  cases command with
  | sendFile path checksum resume =>
      rw [Peer.handleCommand, handleSendFile_recvSide]
      exact LoopEffect.quiet rfl
  | acceptFile saveDir checksum resume =>
      exact handleAcceptFile_effect peer ⟨saveDir, checksum, resume⟩ faults
  | rejectFile => exact LoopEffect.quiet rfl
  | pause => exact LoopEffect.quiet rfl
  | resume => exact LoopEffect.quiet rfl
  | disconnect => exact LoopEffect.quiet rfl

/-! ## The receive task -/

/-- The report of full progress that precedes every verdict. -/
def Peer.progressed
    (peer : Peer) (verifying : Verifying) (rest : List String) : Peer :=
  Peer.emit { peer with hashQueue := rest }
    (.transferProgress
      (verifying.job.resumeOffset + verifying.stored.length)
      verifying.job.fileSize true)

/-- Everything that the file receive task can do. -/
inductive TaskEffect (label : RecvLabel) (peer : Peer) : Peer → Prop
  | started (job : RecvJob) (rest : List RecvJob) :
      peer.receiver = .idle →
      peer.recvQueue = job :: rest →
      TaskEffect label peer
        { peer with recvQueue := rest, receiver := .opening job }
  | refused (job : RecvJob) (files : Files) :
      peer.receiver = .opening job →
      files = peer.files ∨
        peer.files.ensureDirectories job.ancestors = some files →
      TaskEffect label peer
        (Peer.failReceive { peer with files := files } .etc)
  | seekFailed (job : RecvJob) (files opened : Files) :
      peer.receiver = .opening job →
      peer.files.ensureDirectories job.ancestors = some files →
      job.openTarget files = some opened →
      TaskEffect label peer
        ((peer.touch [job.targetWritePath] opened).failReceive .etc)
  | opened (job : RecvJob) (files opened : Files) :
      peer.receiver = .opening job →
      peer.files.ensureDirectories job.ancestors = some files →
      job.openTarget files = some opened →
      TaskEffect label peer
        ((peer.touch [job.targetWritePath] opened).withReceiving job.begin)
  | received (receiving : Receiving) (chunk : List UInt8)
      (loopEnd : Option Bool) :
      label = .receive chunk →
      peer.receiver = .receiving receiving →
      receiving.loopEnd = none →
      chunk.length ≤
        receiving.job.fileSize - receiving.totalReceived →
      receiving.totalReceived < receiving.job.fileSize →
      chunk ≠ [] →
      loopEnd ≠ some true →
      TaskEffect label peer
        (peer.withReceiving
          { receiving with
            totalReceived := receiving.totalReceived + chunk.length
            chunks := receiving.chunks ++ [chunk]
            loopEnd := loopEnd })
  | loopFailed (receiving : Receiving) :
      peer.receiver = .receiving receiving →
      TaskEffect label peer
        (peer.withReceiving { receiving with loopEnd := some false })
  | loopEnded (receiving : Receiving) :
      peer.receiver = .receiving receiving →
      receiving.loopEnd = none →
      receiving.job.fileSize ≤ receiving.totalReceived →
      TaskEffect label peer
        (peer.withReceiving { receiving with loopEnd := some true })
  | storedChunk (receiving : Receiving) (chunk : List UInt8)
      (rest : List (List UInt8)) :
      peer.receiver = .receiving receiving →
      receiving.writerAlive = true →
      receiving.chunks = chunk :: rest →
      TaskEffect label peer
        ((peer.storeBytes receiving chunk).withReceiving
          { receiving with
            chunks := rest
            stored := receiving.stored ++ chunk })
  | writerFailed (receiving : Receiving) (chunk : List UInt8)
      (rest : List (List UInt8)) (length : Nat) :
      peer.receiver = .receiving receiving →
      receiving.chunks = chunk :: rest →
      TaskEffect label peer
        ((peer.storeBytes receiving (chunk.take length)).withReceiving
          { receiving with writerAlive := false })
  | reported (receiving : Receiving) :
      TaskEffect label peer
        (peer.emit
          (.transferProgress receiving.totalReceived
            receiving.job.fileSize false))
  | closed (receiving : Receiving) (flushFails rehashFails : Bool) :
      label = .closeFile flushFails rehashFails →
      peer.receiver = .receiving receiving →
      receiving.loopEnd = some true →
      receiving.writerAlive = true →
      receiving.chunks = [] →
      TaskEffect label peer
        { peer with
          receiver :=
            .verifying (peer.verifyingOf receiving rehashFails) }
  | gaveUp (receiving : Receiving) :
      peer.receiver = .receiving receiving →
      TaskEffect label peer (peer.failReceive .etc)
  | rejected (verifying : Verifying) (rest : List String) :
      peer.receiver = .verifying verifying →
      TaskEffect label peer
        ((peer.progressed verifying rest).failReceive .hashFailed)
  | completed (verifying : Verifying) (expectedHash : String)
      (rest : List String) :
      peer.receiver = .verifying verifying →
      peer.hashQueue = expectedHash :: rest →
      hashOk expectedHash verifying.actualHash = true →
      verifying.job.usePart = false →
      TaskEffect label peer
        ((peer.progressed verifying rest).completeReceive verifying
          expectedHash)
  | committed (verifying : Verifying) (expectedHash : String)
      (rest : List String) (renamed : Files) :
      peer.receiver = .verifying verifying →
      peer.hashQueue = expectedHash :: rest →
      hashOk expectedHash verifying.actualHash = true →
      verifying.job.usePart = true →
      peer.files.rename verifying.targetWritePath
          verifying.job.destPath = some renamed →
      TaskEffect label peer
        (((peer.progressed verifying rest).touch
            [verifying.targetWritePath, verifying.job.destPath]
            renamed).completeReceive verifying expectedHash)
  | abandoned (verifying : Verifying) :
      peer.receiver = .verifying verifying →
      TaskEffect label peer { peer with receiver := .idle }

theorem openTarget_effect
    {peer next : Peer} {job : RecvJob} {outcome : OpenTarget}
    (opening : peer.receiver = .opening job)
    (stepped : peer.openTarget job outcome = some next) :
    TaskEffect (.openTarget outcome) peer next := by
  unfold Peer.openTarget at stepped
  split at stepped
  · cases stepped
    exact TaskEffect.refused job peer.files opening (Or.inl rfl)
  · rename_i files made
    cases stepped
    exact TaskEffect.refused job files opening (Or.inr made)
  · rename_i files made
    split at stepped
    · obtain ⟨opened, targetOpened, rfl⟩ :=
        Option.map_eq_some_iff.mp stepped
      exact TaskEffect.seekFailed job files opened opening made targetOpened
    · cases stepped
  · rename_i files made
    obtain ⟨opened, targetOpened, rfl⟩ :=
      Option.map_eq_some_iff.mp stepped
    exact TaskEffect.opened job files opened opening made targetOpened
  · cases stepped

theorem closeFile_effect
    {peer next : Peer} {receiving : Receiving}
    {flushFails rehashFails : Bool}
    (active : peer.receiver = .receiving receiving)
    (stepped :
      peer.closeFile receiving flushFails rehashFails = some next) :
    TaskEffect (.closeFile flushFails rehashFails) peer next := by
  unfold Peer.closeFile at stepped
  split at stepped
  · cases stepped
  · rename_i success ended
    split at stepped
    · cases stepped
      exact TaskEffect.gaveUp receiving active
    · rename_i alive
      split at stepped
      · cases stepped
      · rename_i drained
        split at stepped
        · cases stepped
          exact TaskEffect.gaveUp receiving active
        · rename_i works
          cases stepped
          have succeeded : success = true := by
            cases success with
            | false => exact absurd (Or.inl rfl) works
            | true => rfl
          rw [succeeded] at ended
          exact
            TaskEffect.closed receiving flushFails rehashFails rfl active
              ended (by simpa using alive) (not_not.mp drained)

theorem receiving_effect
    {peer next : Peer} {receiving : Receiving} {label : RecvLabel}
    (active : peer.receiver = .receiving receiving)
    (stepped : peer.recvStep label = some next) :
    TaskEffect label peer next := by
  unfold Peer.recvStep at stepped
  rw [active] at stepped
  cases label with
  | start => cases stepped
  | openTarget outcome => cases stepped
  | receive chunk =>
      simp only [Peer.receive] at stepped
      split at stepped
      · rename_i taken
        obtain ⟨running, missing, _, nonempty, bounded, _⟩ := taken
        cases stepped
        refine
          TaskEffect.received receiving chunk _ rfl active running
            (Nat.le_trans bounded (Nat.min_le_left _ _)) missing
            nonempty ?_
        split <;> nofun
      · cases stepped
  | receiveFails =>
      simp only [Peer.receiveFails] at stepped
      split at stepped <;> cases stepped
      exact TaskEffect.loopFailed receiving active
  | endReceive =>
      simp only [Peer.endReceive] at stepped
      split at stepped <;> cases stepped
      rename_i ended
      exact TaskEffect.loopEnded receiving active ended.1 ended.2
  | writeChunk =>
      simp only [Peer.storeChunk] at stepped
      split at stepped
      · rename_i chunk rest alive queued
        cases stepped
        exact
          TaskEffect.storedChunk receiving chunk rest active alive queued
      · cases stepped
  | writeFails length =>
      simp only [Peer.storeFails] at stepped
      split at stepped
      · rename_i chunk rest alive queued
        split at stepped <;> cases stepped
        exact
          TaskEffect.writerFailed receiving chunk rest length active
            queued
      · cases stepped
  | report =>
      cases stepped
      exact TaskEffect.reported receiving
  | closeFile flushFails rehashFails =>
      exact closeFile_effect active stepped
  | verify renameFails => cases stepped
  | hashClosed => cases stepped

theorem verify_effect
    {peer next : Peer} {verifying : Verifying} {renameFails : Bool}
    (active : peer.receiver = .verifying verifying)
    (stepped : peer.verify verifying renameFails = some next) :
    TaskEffect (.verify renameFails) peer next := by
  unfold Peer.verify at stepped
  split at stepped
  · rename_i expectedHash rest queued
    simp only at stepped
    split at stepped
    · rename_i passed
      split at stepped
      · rename_i committed commit
        cases stepped
        unfold Peer.commit at commit
        split at commit
        · rename_i staged
          split at commit
          · cases commit
          · obtain ⟨renamed, moved, rfl⟩ :=
              Option.map_eq_some_iff.mp commit
            exact
              TaskEffect.committed verifying expectedHash rest renamed
                active queued passed staged moved
        · rename_i direct
          cases commit
          exact
            TaskEffect.completed verifying expectedHash rest active queued
              passed (by simpa using direct)
      · cases stepped
        exact TaskEffect.rejected verifying rest active
    · cases stepped
      exact TaskEffect.rejected verifying rest active
  · cases stepped

theorem recvStep_effect
    {peer next : Peer} {label : RecvLabel}
    (stepped : peer.recvStep label = some next) :
    TaskEffect label peer next := by
  cases phase : peer.receiver with
  | idle =>
      unfold Peer.recvStep at stepped
      rw [phase] at stepped
      cases label <;> simp only at stepped <;> try cases stepped
      split at stepped
      · rename_i job rest queued
        cases stepped
        exact TaskEffect.started job rest phase queued
      · cases stepped
  | opening job =>
      unfold Peer.recvStep at stepped
      rw [phase] at stepped
      cases label <;> simp only at stepped <;> try cases stepped
      exact openTarget_effect phase stepped
  | receiving receiving =>
      exact receiving_effect phase stepped
  | verifying verifying =>
      unfold Peer.recvStep at stepped
      rw [phase] at stepped
      cases label <;> simp only at stepped <;> try cases stepped
      · exact verify_effect phase stepped
      · split at stepped <;> cases stepped
        exact TaskEffect.abandoned verifying phase
  | stopped =>
      unfold Peer.recvStep at stepped
      rw [phase] at stepped
      cases label <;> cases stepped

theorem taskEffect_coordinator
    {label : RecvLabel} {peer next : Peer}
    (effect : TaskEffect label peer next) :
    next.coordinator = peer.coordinator := by
  cases effect <;> rfl

/-! ## One step of the peer -/

theorem sendStep_recvSide
    {peer next : Peer} {label : SendLabel}
    (stepped : peer.sendStep label = some next) :
    next.recvSide = peer.recvSide := by
  cases sendStep_effect stepped <;> rfl

/-- A step is one of the coordination loop or one of the receive task, as far
as the receive side is concerned. -/
theorem peerStep_effect
    {peer next : Peer} {label : PeerLabel}
    (stepped : peerStep peer label = some next) :
    LoopEffect peer label next.recvSide ∨
      ∃ recvLabel, label = .recv recvLabel ∧
        TaskEffect recvLabel peer next := by
  cases label with
  | control letter faults =>
      simp only [peerStep] at stepped
      split at stepped <;> cases stepped
      exact Or.inl (handleControl_effect peer letter faults)
  | command command faults =>
      simp only [peerStep] at stepped
      split at stepped <;> cases stepped
      exact Or.inl (handleCommand_effect peer command faults)
  | loopEnds reason =>
      simp only [peerStep] at stepped
      split at stepped <;> cases stepped
      have unchanged : (peer.endLoop reason).recvSide = peer.recvSide := by
        cases reason <;> rfl
      rw [unchanged]
      exact Or.inl (LoopEffect.quiet rfl)
  | send sendLabel =>
      rw [sendStep_recvSide stepped]
      exact Or.inl (LoopEffect.quiet rfl)
  | recv recvLabel =>
      exact Or.inr ⟨recvLabel, rfl, recvStep_effect stepped⟩

/-- A step that applies an accept does nothing else to the receive side. -/
theorem peerStep_accepts
    {peer next : Peer} {label : PeerLabel} {applied : AppliedAccept}
    (isApplied : peer.applied label = some applied)
    (stepped : peerStep peer label = some next) :
    AcceptEffect applied label.faults peer.recvSide next.recvSide := by
  have notQuiet : peer.applied label ≠ none := by
    rw [isApplied]
    nofun
  rcases peerStep_effect stepped with effect | ⟨recvLabel, rfl, _⟩
  · generalize next.recvSide = side at effect
    cases effect with
    | quiet noAccept => exact absurd noAccept notQuiet
    | accepted other faults side isOther hasFaults effect =>
        rw [isApplied] at isOther
        rw [hasFaults, Option.some.inj isOther]
        exact effect
    | resumed job noAccept _ _ => exact absurd noAccept notQuiet
    | restarted job noAccept _ _ => exact absurd noAccept notQuiet
    | recreated job partPath created noAccept _ _ _ _ =>
        exact absurd noAccept notQuiet
  · cases isApplied

end Quiczilla
