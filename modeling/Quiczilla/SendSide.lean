import Quiczilla.FileSendTask

/-!
# What a step of the file send task can do

The relation lists the effects of the task on the whole peer, with what it
knows about the iteration that takes the step.
-/

namespace Quiczilla

open Foundation

inductive SendEffect (peer : Peer) : Peer → Prop
  | started (job : SendJob) (rest : List SendJob) :
      peer.sender = .idle →
      peer.sendQueue = job :: rest →
      SendEffect peer
        { peer with sendQueue := rest, sender := .opening job }
  | openFailed (job : SendJob) (reason : String) :
      peer.sender = .opening job →
      SendEffect peer
        ((peer.stopSending
            ((peer.pledged job.path).drop job.resumeOffset)).emit
          (.disconnected reason))
  | opened (job : SendJob) (totalBytes : Nat) :
      peer.sender = .opening job →
      SendEffect peer (peer.withStream (job.begin totalBytes))
  | read (stream : SendStream) (length : Nat) (bytes : List UInt8) :
      peer.sender = .streaming stream →
      stream.reader = .reading →
      bytes =
        ((peer.sourceContent stream.job).drop stream.position).take
          length →
      bytes.length = length →
      SendEffect peer
        (peer.withStream
          { stream with
            position := stream.position + length
            hashed := stream.hashed ++ bytes
            chunks := stream.chunks ++ [bytes] })
  | readEnded (stream : SendStream) (content : List UInt8) :
      peer.sender = .streaming stream →
      stream.reader = .reading →
      peer.source stream.job.path = some content →
      content.length ≤ stream.position →
      SendEffect peer
        (peer.withStream
          { stream with reader := .finished stream.inlineHash })
  | readFailed (stream : SendStream) :
      peer.sender = .streaming stream →
      SendEffect peer (peer.withStream { stream with reader := .failed })
  | took (stream : SendStream) (chunk : List UInt8)
      (rest : List (List UInt8)) :
      peer.sender = .streaming stream →
      stream.taken = none →
      stream.chunks = chunk :: rest →
      SendEffect peer
        (peer.withStream
          { stream with taken := some chunk, chunks := rest })
  | wrote (stream : SendStream) (chunk : List UInt8) :
      peer.sender = .streaming stream →
      stream.taken = some chunk →
      SendEffect peer
        ((peer.put chunk).withStream
          { stream with
            taken := none
            bytesTransferred := stream.bytesTransferred + chunk.length })
  | wroteStopped (stream : SendStream) (chunk : List UInt8)
      (length : Nat) :
      peer.sender = .streaming stream →
      stream.taken = some chunk →
      SendEffect peer
        ((peer.put (chunk.take length)).stopSending
          ({ stream with taken := some (chunk.drop length) }.remaining
            (peer.pledged stream.job.path)))
  | reported (stream : SendStream) :
      SendEffect peer
        (peer.emit
          (.transferProgress stream.bytesTransferred stream.totalBytes
            false))
  | gaveUp (stream : SendStream) :
      peer.sender = .streaming stream →
      SendEffect peer
        (peer.stopSending
          (stream.remaining (peer.pledged stream.job.path)))
  | finished (stream : SendStream) (inlineHash : String)
      (rehashFails : Bool) :
      peer.sender = .streaming stream →
      stream.taken = none →
      stream.chunks = [] →
      stream.reader = .finished inlineHash →
      SendEffect peer
        (Peer.send
          (Peer.emit { peer with sender := .idle }
            (.transferProgress stream.bytesTransferred stream.totalBytes
              true))
          (.fileSent (peer.finalHash stream inlineHash rehashFails))
          stream.job.offer)

theorem openSource_effect
    {peer next : Peer} {job : SendJob} {outcome : OpenSource}
    (opening : peer.sender = .opening job)
    (stepped : peer.openSource job outcome = some next) :
    SendEffect peer next := by
  unfold Peer.openSource at stepped
  split at stepped
  · cases stepped
    exact SendEffect.opened job _ opening
  · cases stepped
  · split at stepped <;> cases stepped
    exact SendEffect.openFailed job _ opening
  · cases stepped
    exact SendEffect.openFailed job _ opening

/-- Leaving the loop after a full write stops with nothing of the chunk
left. -/
theorem writeChunk_effect
    {peer next : Peer} {stream : SendStream}
    (streaming : peer.sender = .streaming stream)
    (stepped : peer.writeChunk stream = some next) :
    SendEffect peer next := by
  unfold Peer.writeChunk at stepped
  split at stepped
  · rename_i chunk taken
    split at stepped
    · cases stepped
    · split at stepped
      · cases stepped
        have stopped :=
          SendEffect.wroteStopped stream chunk chunk.length streaming taken
        have nothingLeft :
            { stream with
              taken := some (chunk.drop chunk.length) }.remaining
                (peer.pledged stream.job.path) =
              { stream with taken := none }.remaining
                (peer.pledged stream.job.path) := by
          simp [SendStream.remaining]
        rwa [List.take_length, nothingLeft] at stopped
      · cases stepped
        exact SendEffect.wrote stream chunk streaming taken
  · cases stepped

theorem finishSending_effect
    {peer next : Peer} {stream : SendStream} {rehashFails : Bool}
    (streaming : peer.sender = .streaming stream)
    (stepped : peer.finishSending stream rehashFails = some next) :
    SendEffect peer next := by
  unfold Peer.finishSending at stepped
  split at stepped
  · rename_i drained
    split at stepped
    · cases stepped
    · cases stepped
      exact SendEffect.gaveUp stream streaming
    · rename_i inlineHash ended
      cases stepped
      exact
        SendEffect.finished stream inlineHash rehashFails streaming
          drained.1 drained.2 ended
  · cases stepped

theorem streaming_effect
    {peer next : Peer} {stream : SendStream} {label : SendLabel}
    (streaming : peer.sender = .streaming stream)
    (stepped : peer.sendStep label = some next) :
    SendEffect peer next := by
  unfold Peer.sendStep at stepped
  rw [streaming] at stepped
  cases label with
  | start => cases stepped
  | openSource outcome => cases stepped
  | readChunk length =>
      simp only [Peer.readChunk] at stepped
      split at stepped <;> cases stepped
      rename_i readable
      obtain ⟨reading, _, _, full, _⟩ := readable
      exact SendEffect.read stream length _ streaming reading rfl full
  | readEnd =>
      simp only [Peer.readEnd] at stepped
      split at stepped
      · rename_i content present
        split at stepped <;> cases stepped
        rename_i ended
        exact
          SendEffect.readEnded stream content streaming ended.1 present
            ended.2
      · cases stepped
  | readFails =>
      simp only at stepped
      split at stepped <;> cases stepped
      exact SendEffect.readFailed stream streaming
  | takeChunk =>
      simp only at stepped
      split at stepped <;> cases stepped
      rename_i chunk rest free queued
      exact SendEffect.took stream chunk rest streaming free queued
  | writeChunk => exact writeChunk_effect streaming stepped
  | writeStops length =>
      simp only [Peer.writeStops] at stepped
      split at stepped
      · rename_i chunk taken
        split at stepped <;> cases stepped
        exact
          SendEffect.wroteStopped stream chunk length streaming taken
      · cases stepped
  | report =>
      cases stepped
      exact SendEffect.reported stream
  | finish rehashFails => exact finishSending_effect streaming stepped

theorem sendStep_effect
    {peer next : Peer} {label : SendLabel}
    (stepped : peer.sendStep label = some next) :
    SendEffect peer next := by
  cases phase : peer.sender with
  | idle =>
      unfold Peer.sendStep at stepped
      rw [phase] at stepped
      cases label <;> simp only at stepped <;> try cases stepped
      split at stepped <;> cases stepped
      rename_i job rest queued
      exact SendEffect.started job rest phase queued
  | opening job =>
      unfold Peer.sendStep at stepped
      rw [phase] at stepped
      cases label <;> simp only at stepped <;> try cases stepped
      exact openSource_effect phase stepped
  | streaming stream =>
      exact streaming_effect phase stepped

end Quiczilla
