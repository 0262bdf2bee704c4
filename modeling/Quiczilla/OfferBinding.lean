import Quiczilla.LinkHandshake
import Quiczilla.ReceiveJobs

/-!
# What is sent is what was offered

Offers, answers, file bytes and `FILE_SENT` carry no number.  As long as every
answer is taken for the last offer, and no send starts behind one that has left
bytes out, the two sides agree without one: the bytes on the stream and those
that are still to come are, in this order, the bytes that the receiving side
waits for.
-/

namespace Quiczilla

open Foundation

/-! ## Owed and awaited bytes -/

/-- The bytes that the offer of this number promises. -/
def Peer.promised (peer : Peer) (number : Nat) : List UInt8 :=
  ((peer.coordinator.announced[number]?).map peer.pledged).getD []

def SendJob.owed
    (pledged : String → List UInt8) (job : SendJob) : List UInt8 :=
  (pledged job.path).drop job.resumeOffset

def SendPhase.owed
    (pledged : String → List UInt8) : SendPhase → List UInt8
  | .idle => []
  | .opening job => job.owed pledged
  | .streaming stream => stream.remaining (pledged stream.job.path)

/-- The bytes on the stream, and behind them those that are still to come. -/
def Peer.owed (peer : Peer) : List UInt8 :=
  peer.fileOut ++ peer.unsent ++ peer.sender.owed peer.pledged ++
    peer.sendQueue.flatMap (SendJob.owed peer.pledged)

/-- What an answer lets the sending side put on the stream. -/
def Answer.granted (promised : Nat → List UInt8) : Answer → List UInt8
  | .ready number => promised number
  | .resumeReady _ _ _ => []

def RecvJob.awaited
    (promised : Nat → List UInt8) (job : RecvJob) : List UInt8 :=
  (promised job.offer).drop job.resumeOffset

def RecvPhase.awaited
    (promised : Nat → List UInt8) : RecvPhase → List UInt8
  | .opening job => job.awaited promised
  | .receiving current =>
      (promised current.job.offer).drop current.totalReceived
  | _ => []

def Peer.awaited
    (peer : Peer) (promised : Nat → List UInt8) : List UInt8 :=
  peer.receiver.awaited promised ++
    peer.recvQueue.flatMap (RecvJob.awaited promised)

/-- A confirmed resume is awaited before the receiving side hears of it. -/
def Link.confirmed (link : Link) : List UInt8 :=
  if Notice.resumeOk ∈ link.left.notices then
    (link.right.coordinator.pendingResumeRecv.map
      (RecvJob.awaited link.left.promised)).getD []
  else []

/-- The sending side owes what the receiving side awaits.  A receive task that
has stopped awaits nothing any more. -/
def Link.InFlow (link : Link) : Prop :=
  link.right.receiver = .stopped ∨
    link.left.owed ++
        link.right.answers.flatMap (Answer.granted link.left.promised) =
      link.right.awaited link.left.promised ++ link.confirmed

/-! ## The sending side -/

/-- The reader has finished at the end of the source only. -/
def Peer.ReadsToEnd (peer : Peer) : Prop :=
  ∀ stream inlineHash, peer.sender = .streaming stream →
    stream.reader = .finished inlineHash →
      (peer.pledged stream.job.path).length ≤ stream.position

theorem pledged_of_source
    {peer : Peer} {path : String} {content : List UInt8}
    (isSource : peer.source path = some content) :
    peer.pledged path = content := by
  rw [Peer.source, FileStore.content?] at isSource
  rw [Peer.pledged]
  split at isSource
  · rename_i other isFile
    rw [isFile]
    exact Option.some.inj isSource
  · cases isSource

/-- What a reader takes from the source is in front of what remains. -/
theorem drop_pledged
    {peer : Peer} {job : SendJob} {position length : Nat}
    {bytes : List UInt8}
    (isRead :
      bytes = ((peer.sourceContent job).drop position).take length)
    (full : bytes.length = length) :
    (peer.pledged job.path).drop position =
      bytes ++ (peer.pledged job.path).drop (position + length) := by
  cases source : peer.source job.path with
  | none =>
      have nothing : bytes = [] := by
        rw [isRead, Peer.sourceContent, source]
        simp
      rw [nothing] at full
      rw [nothing, ← full, List.nil_append]
      rfl
  | some content =>
      have isContent : peer.sourceContent job = content := by
        rw [Peer.sourceContent, source, Option.getD_some]
      rw [isContent] at isRead
      rw [pledged_of_source source, isRead, ← List.drop_drop]
      exact (List.take_append_drop length (content.drop position)).symm

theorem sendStep_start
    {peer next : Peer} {label : SendLabel} (isIdle : peer.sender = .idle)
    (stepped : peer.sendStep label = some next) : label = .start := by
  unfold Peer.sendStep at stepped
  rw [isIdle] at stepped
  cases label with
  | start => rfl
  | _ => cases stepped

theorem sendStep_files
    {peer next : Peer} {label : SendLabel}
    (stepped : peer.sendStep label = some next) :
    next.files = peer.files ∧ next.coordinator = peer.coordinator := by
  cases sendStep_effect stepped <;> exact ⟨rfl, rfl⟩

theorem readsToEnd_sendStep
    {peer next : Peer} {label : SendLabel} (reads : peer.ReadsToEnd)
    (stepped : peer.sendStep label = some next) : next.ReadsToEnd := by
  have samePledged : next.pledged = peer.pledged := by
    funext path
    rw [Peer.pledged, (sendStep_files stepped).1]
    rfl
  intro stream inlineHash isStreaming isFinished
  rw [samePledged]
  cases sendStep_effect stepped with
  | started job rest isIdle isQueue => cases isStreaming
  | openFailed job reason isOpening => cases isStreaming
  | opened job totalBytes isOpening =>
      cases isStreaming
      cases isFinished
  | read current length bytes wasStreaming isReading isRead full =>
      cases isStreaming
      have same : DiskReader.reading = .finished inlineHash :=
        isReading.symm.trans isFinished
      cases same
  | readEnded current content wasStreaming isReading isSource atEnd =>
      cases isStreaming
      rw [pledged_of_source isSource]
      exact atEnd
  | readFailed current wasStreaming =>
      cases isStreaming
      cases isFinished
  | took current chunk rest wasStreaming isFree isQueued =>
      cases isStreaming
      exact reads current inlineHash wasStreaming isFinished
  | wrote current chunk wasStreaming isTaken =>
      cases isStreaming
      exact reads current inlineHash wasStreaming isFinished
  | wroteStopped current chunk length wasStreaming isTaken =>
      cases isStreaming
  | reported current => exact reads stream inlineHash isStreaming isFinished
  | gaveUp current wasStreaming => cases isStreaming
  | finished current hash rehashFails wasStreaming isFree isEmpty ended =>
      cases isStreaming

theorem owed_of_phase
    {peer : Peer} {phase : SendPhase} (isPhase : peer.sender = phase) :
    peer.owed =
      peer.fileOut ++ peer.unsent ++ phase.owed peer.pledged ++
        peer.sendQueue.flatMap (SendJob.owed peer.pledged) := by
  rw [Peer.owed, isPhase]

/-- An iteration that stops leaves out what it still owed. -/
theorem stopSending_owed (peer : Peer) (remaining : List UInt8) :
    (peer.stopSending remaining).owed =
      peer.fileOut ++ peer.unsent ++ remaining ++
        peer.sendQueue.flatMap (SendJob.owed peer.pledged) := by
  have same : (peer.stopSending remaining).pledged = peer.pledged := rfl
  rw [Peer.owed, same]
  simp only [Peer.stopSending, SendPhase.owed, List.append_assoc,
    List.nil_append]

theorem withStream_owed (peer : Peer) (stream : SendStream) :
    (peer.withStream stream).owed =
      peer.fileOut ++ peer.unsent ++
          stream.remaining (peer.pledged stream.job.path) ++
        peer.sendQueue.flatMap (SendJob.owed peer.pledged) := by
  have same : (peer.withStream stream).pledged = peer.pledged := rfl
  rw [Peer.owed, same]
  simp only [Peer.withStream, SendPhase.owed]

/-- While nothing is left out, a step of the send task moves bytes from what it
owes to the stream. -/
theorem sendStep_owed
    {peer next : Peer} {label : SendLabel} (reads : peer.ReadsToEnd)
    (complete : peer.unsent = [])
    (stepped : peer.sendStep label = some next) :
    next.owed = peer.owed := by
  cases sendStep_effect stepped with
  | started job rest isIdle isQueue =>
      rw [owed_of_phase isIdle, isQueue, List.flatMap_cons]
      simp only [SendPhase.owed, List.append_nil]
      exact (List.append_assoc _ _ _)
  | openFailed job reason isOpening =>
      rw [owed_of_phase isOpening]
      exact stopSending_owed peer _
  | opened job totalBytes isOpening =>
      rw [owed_of_phase isOpening, withStream_owed]
      rfl
  | read stream length bytes isStreaming isReading isRead full =>
      rw [owed_of_phase isStreaming, withStream_owed]
      simp only [SendPhase.owed, SendStream.remaining,
        drop_pledged isRead full, List.flatten_append,
        List.flatten_singleton, List.append_assoc]
  | readEnded stream content isStreaming isReading isSource atEnd =>
      rw [owed_of_phase isStreaming, withStream_owed]
      rfl
  | readFailed stream isStreaming =>
      rw [owed_of_phase isStreaming, withStream_owed]
      rfl
  | took stream chunk rest isStreaming isFree isQueued =>
      rw [owed_of_phase isStreaming, withStream_owed]
      simp only [SendPhase.owed, SendStream.remaining, isFree, isQueued,
        Option.getD_some, Option.getD_none, List.flatten_cons,
        List.nil_append, List.append_assoc]
  | wrote stream chunk isStreaming isTaken =>
      rw [owed_of_phase isStreaming, withStream_owed]
      simp only [SendPhase.owed, SendStream.remaining, Peer.put, isTaken,
        complete, Option.getD_some, Option.getD_none,
        List.nil_append, List.append_nil, List.append_assoc]
      rfl
  | wroteStopped stream chunk length isStreaming isTaken =>
      rw [owed_of_phase isStreaming, stopSending_owed]
      simp only [SendPhase.owed, SendStream.remaining, Peer.put, isTaken,
        complete, Option.getD_some, List.append_nil,
        List.append_assoc]
      rw [← List.append_assoc (chunk.take length), List.take_append_drop]
      rfl
  | reported stream => rfl
  | gaveUp stream isStreaming =>
      rw [owed_of_phase isStreaming, stopSending_owed]
      rfl
  | finished stream hash rehashFails isStreaming isFree isEmpty ended =>
      have atEnd := reads stream hash isStreaming ended
      rw [owed_of_phase isStreaming]
      simp only [SendPhase.owed, SendStream.remaining, isFree, isEmpty,
        List.drop_eq_nil_of_le atEnd, Option.getD_none, List.flatten_nil,
        List.append_nil]
      rw [Peer.owed]
      simp only [Peer.send, Peer.emit, SendPhase.owed, List.append_nil]
      rfl

theorem sendStep_unbroken
    {peer next : Peer} {label : SendLabel} (complete : peer.unsent = [])
    (stepped : peer.sendStep label = some next) :
    next.sender = .idle ∨ next.unsent = [] := by
  cases sendStep_effect stepped with
  | openFailed job reason isOpening => exact Or.inl rfl
  | wroteStopped stream chunk length isStreaming => exact Or.inl rfl
  | gaveUp stream isStreaming => exact Or.inl rfl
  | finished stream hash rehashFails isStreaming => exact Or.inl rfl
  | _ => exact Or.inr complete

/-! ## The receiving side -/

/-- The job receives what an offer of the sending side announces. -/
structure RecvJob.Genuine (sender : Peer) (job : RecvJob) : Prop where
  known : job.offer < sender.coordinator.announced.length
  size : job.fileSize = (sender.promised job.offer).length
  offset : job.resumeOffset ≤ job.fileSize

structure HeldOffer.Genuine (sender : Peer) (offer : HeldOffer) : Prop where
  known : offer.number < sender.coordinator.announced.length
  size : offer.size = (sender.promised offer.number).length

theorem RecvJob.For.genuine
    {sender : Peer} {job : RecvJob} {offer : HeldOffer}
    (isFor : job.For offer) (isGenuine : offer.Genuine sender)
    (offset : job.resumeOffset ≤ offer.size) : job.Genuine sender where
  known := by
    rw [isFor.number]
    exact isGenuine.known
  size := by
    rw [isFor.number, isFor.size]
    exact isGenuine.size
  offset := by
    rw [isFor.size]
    exact offset

theorem RecvJob.Genuine.restarted
    {sender : Peer} {job : RecvJob} (isGenuine : job.Genuine sender) :
    RecvJob.Genuine sender { job with resumeOffset := 0 } where
  known := isGenuine.known
  size := isGenuine.size
  offset := Nat.zero_le _

/-- What has been received, on disk or on the way there, is the front of what
was promised. -/
structure Receiving.Matches
    (receiving : Receiving) (content : List UInt8) : Prop where
  offset : receiving.job.resumeOffset ≤ receiving.totalReceived
  bounded : receiving.totalReceived ≤ receiving.job.fileSize
  taken :
    receiving.stored ++ receiving.chunks.flatten =
      (content.drop receiving.job.resumeOffset).take
        (receiving.totalReceived - receiving.job.resumeOffset)
  ended :
    receiving.loopEnd = some true →
      receiving.totalReceived = receiving.job.fileSize

def Verifying.Matches
    (verifying : Verifying) (content : List UInt8) : Prop :=
  verifying.stored = content.drop verifying.job.resumeOffset

def RecvPhase.Matches
    (promised : Nat → List UInt8) : RecvPhase → Prop
  | .receiving current => current.Matches (promised current.job.offer)
  | .verifying current => current.Matches (promised current.job.offer)
  | _ => True

/-- A completed receive has stored what was promised to it. -/
structure Receipt.Honest (sender : Peer) (receipt : Receipt) : Prop where
  genuine : receipt.verified.job.Genuine sender
  stored :
    receipt.verified.Matches
      (sender.promised receipt.verified.job.offer)

section ReceiveTask

variable {sender peer next : Peer}

theorem Receiving.Matches.receive
    {receiving : Receiving} {content chunk : List UInt8}
    (matching : receiving.Matches content)
    (isPrefix : chunk <+: content.drop receiving.totalReceived)
    (fits :
      chunk.length ≤
        receiving.job.fileSize - receiving.totalReceived)
    {loopEnd : Option Bool} (notEnded : loopEnd ≠ some true) :
    Receiving.Matches
      { receiving with
        totalReceived := receiving.totalReceived + chunk.length
        chunks := receiving.chunks ++ [chunk]
        loopEnd := loopEnd } content where
  offset := Nat.le_add_right_of_le matching.offset
  bounded := by
    have bounded := matching.bounded
    change
      receiving.totalReceived + chunk.length ≤ receiving.job.fileSize
    omega
  taken := by
    have offset := matching.offset
    have isCount :
        receiving.totalReceived + chunk.length -
            receiving.job.resumeOffset =
          receiving.totalReceived - receiving.job.resumeOffset +
            chunk.length := by
      omega
    have isRest :
        (content.drop receiving.job.resumeOffset).drop
            (receiving.totalReceived - receiving.job.resumeOffset) =
          content.drop receiving.totalReceived := by
      rw [List.drop_drop, Nat.add_sub_cancel' offset]
    simp only [isCount, List.take_add, isRest, List.flatten_append,
      List.flatten_singleton]
    rw [← List.append_assoc, matching.taken,
      ← List.prefix_iff_eq_take.mp isPrefix]
  ended := fun isEnded => absurd isEnded notEnded

/-- Once everything has arrived, the file is what was promised. -/
theorem Receiving.Matches.close
    {receiving : Receiving} {content : List UInt8} {rehashFails : Bool}
    (matching : receiving.Matches content)
    (ended : receiving.loopEnd = some true)
    (drained : receiving.chunks = [])
    (sized : receiving.job.fileSize = content.length) :
    (peer.verifyingOf receiving rehashFails).Matches content := by
  have taken := matching.taken
  rw [drained, List.flatten_nil, List.append_nil, matching.ended ended,
    sized] at taken
  rw [Verifying.Matches]
  refine taken.trans (List.take_of_length_le ?_)
  rw [List.length_drop]

theorem receipts_of_effect
    {label : RecvLabel} (effect : TaskEffect label peer next) :
    next.receipts = peer.receipts ∨
      ∃ verifying hash,
        peer.receiver = .verifying verifying ∧
          next.receipts = peer.receipts ++ [⟨verifying, hash⟩] := by
  cases effect with
  | completed verifying hash rest isVerifying =>
      exact Or.inr ⟨verifying, hash, isVerifying, rfl⟩
  | committed verifying hash rest renamed isVerifying =>
      exact Or.inr ⟨verifying, hash, isVerifying, rfl⟩
  | _ => exact Or.inl rfl

/-- A receipt is for a file that matches. -/
theorem recvStep_honest
    {label : RecvLabel}
    (jobs : peer.recvSide.Jobs (RecvJob.Genuine sender))
    (matching : peer.receiver.Matches sender.promised)
    (honest : ∀ receipt ∈ peer.receipts, receipt.Honest sender)
    (stepped : peer.recvStep label = some next) :
    ∀ receipt ∈ next.receipts, receipt.Honest sender := by
  obtain same | ⟨verifying, hash, isVerifying, isNext⟩ :=
    receipts_of_effect (recvStep_effect stepped)
  · rw [same]
    exact honest
  · have active : peer.receiver.Holds (RecvJob.Genuine sender) :=
      jobs.active
    rw [isVerifying] at active matching
    intro receipt member
    rw [isNext] at member
    obtain earlier | new := List.mem_append.mp member
    · exact honest receipt earlier
    · rw [List.mem_singleton.mp new]
      exact ⟨active.1, matching⟩

theorem recvStep_receive
    {chunk : List UInt8}
    (stepped : peer.recvStep (.receive chunk) = some next) :
    ∃ receiving loopEnd,
      peer.receiver = .receiving receiving ∧
        chunk.length ≤
            receiving.job.fileSize - receiving.totalReceived ∧
          loopEnd ≠ some true ∧
            next =
              peer.withReceiving
                { receiving with
                  totalReceived := receiving.totalReceived + chunk.length
                  chunks := receiving.chunks ++ [chunk]
                  loopEnd := loopEnd } := by
  unfold Peer.recvStep at stepped
  split at stepped <;> try contradiction
  · rename_i receiving other isReceiving isLabel
    cases isLabel
    unfold Peer.receive at stepped
    split at stepped <;> cases stepped
    rename_i taken
    obtain ⟨-, -, -, -, bounded, -⟩ := taken
    refine
      ⟨receiving, _, isReceiving, bounded.trans (Nat.min_le_left _ _), ?_,
        rfl⟩
    split <;> simp

/-- A read takes what is awaited from the stream. -/
theorem recvStep_receive_matches
    {chunk rest behind : List UInt8}
    (matching : peer.receiver.Matches sender.promised)
    (jobs : peer.recvSide.Jobs (RecvJob.Genuine sender))
    (isFront :
      chunk ++ rest = peer.awaited sender.promised ++ behind)
    (stepped : peer.recvStep (.receive chunk) = some next) :
    next.receiver.Matches sender.promised ∧
      peer.awaited sender.promised =
        chunk ++ next.awaited sender.promised := by
  obtain ⟨receiving, loopEnd, isReceiving, fits, notEnded, rfl⟩ :=
    recvStep_receive stepped
  have active : peer.receiver.Holds (RecvJob.Genuine sender) :=
    jobs.active
  rw [isReceiving] at active matching
  rw [Peer.awaited, isReceiving, RecvPhase.awaited, List.append_assoc]
    at isFront
  have isPrefix :
      chunk <+:
        (sender.promised receiving.job.offer).drop
          receiving.totalReceived := by
    refine
      List.prefix_of_prefix_length_le ⟨rest, isFront⟩
        (List.prefix_append _ _) ?_
    rw [List.length_drop, ← active.1.size]
    exact fits
  refine ⟨matching.receive isPrefix fits notEnded, ?_⟩
  have isRest :
      (sender.promised receiving.job.offer).drop receiving.totalReceived =
        chunk ++
          (sender.promised receiving.job.offer).drop
            (receiving.totalReceived + chunk.length) := by
    obtain ⟨others, isOthers⟩ := isPrefix
    rw [← List.drop_drop, ← isOthers, List.drop_left]
  rw [Peer.awaited, isReceiving, RecvPhase.awaited, isRest,
    List.append_assoc]
  rfl

/-- Every other step of the receive task leaves what it awaits. -/
theorem recvStep_matches
    {label : RecvLabel}
    (matching : peer.receiver.Matches sender.promised)
    (jobs : peer.recvSide.Jobs (RecvJob.Genuine sender))
    (notReceive : ∀ chunk, label ≠ .receive chunk)
    (stepped : peer.recvStep label = some next) :
    next.receiver.Matches sender.promised ∧
      (next.receiver = .stopped ∨
        next.awaited sender.promised = peer.awaited sender.promised) := by
  have active : peer.receiver.Holds (RecvJob.Genuine sender) :=
    jobs.active
  have kept {phase : RecvPhase} (isPhase : peer.receiver = phase)
      (samePhase :
        next.receiver.awaited sender.promised =
          phase.awaited sender.promised)
      (sameQueue : next.recvQueue = peer.recvQueue) :
      next.awaited sender.promised = peer.awaited sender.promised := by
    rw [Peer.awaited, Peer.awaited, isPhase, samePhase, sameQueue]
  cases recvStep_effect stepped with
  | started job rest isIdle isQueue =>
      refine ⟨trivial, Or.inr ?_⟩
      rw [Peer.awaited, Peer.awaited, isIdle, isQueue]
      rfl
  | refused job files isOpening isFiles => exact ⟨trivial, Or.inl rfl⟩
  | seekFailed job files opened isOpening isFiles isOpened =>
      exact ⟨trivial, Or.inl rfl⟩
  | opened job files opened isOpening isFiles isOpened =>
      rw [isOpening] at active
      refine
        ⟨⟨le_rfl, active.offset, ?_, ?_⟩, Or.inr (kept isOpening rfl rfl)⟩
      · simp [RecvJob.begin]
      · intro ended
        cases ended
  | received receiving chunk loopEnd isLabel =>
      exact absurd isLabel (notReceive chunk)
  | loopFailed receiving isReceiving =>
      rw [isReceiving] at matching
      refine
        ⟨⟨matching.offset, matching.bounded, matching.taken, ?_⟩,
          Or.inr (kept isReceiving rfl rfl)⟩
      intro ended
      cases ended
  | loopEnded receiving isReceiving isRunning atEnd =>
      rw [isReceiving] at matching
      exact
        ⟨⟨matching.offset, matching.bounded, matching.taken,
            fun _ => le_antisymm matching.bounded atEnd⟩,
          Or.inr (kept isReceiving rfl rfl)⟩
  | storedChunk receiving chunk rest isReceiving isAlive isQueued =>
      rw [isReceiving] at matching
      refine
        ⟨⟨matching.offset, matching.bounded, ?_, matching.ended⟩,
          Or.inr (kept isReceiving rfl rfl)⟩
      rw [← matching.taken, isQueued, List.flatten_cons, List.append_assoc]
  | writerFailed receiving chunk rest length isReceiving isQueued =>
      rw [isReceiving] at matching
      exact
        ⟨⟨matching.offset, matching.bounded, matching.taken,
            matching.ended⟩,
          Or.inr (kept isReceiving rfl rfl)⟩
  | reported receiving => exact ⟨matching, Or.inr rfl⟩
  | closed receiving flushFails rehashFails isLabel isReceiving ended alive
      drained =>
      rw [isReceiving] at matching active
      refine
        ⟨matching.close ended drained active.1.size,
          Or.inr (kept isReceiving ?_ rfl)⟩
      have atEnd := matching.ended ended
      rw [active.1.size] at atEnd
      simp only [RecvPhase.awaited, atEnd, List.drop_length]
  | gaveUp receiving isReceiving => exact ⟨trivial, Or.inl rfl⟩
  | rejected verifying rest isVerifying => exact ⟨trivial, Or.inl rfl⟩
  | completed verifying hash rest isVerifying =>
      exact ⟨trivial, Or.inr (kept isVerifying rfl rfl)⟩
  | committed verifying hash rest renamed isVerifying =>
      exact ⟨trivial, Or.inr (kept isVerifying rfl rfl)⟩
  | abandoned verifying isVerifying =>
      exact ⟨trivial, Or.inr (kept isVerifying rfl rfl)⟩

end ReceiveTask

end Quiczilla
