import Quiczilla.FileSendTask

/-!
# The file receive task

One iteration creates the parent directories, opens the target and runs two
halves: the network reader, which takes at most the missing bytes from the
file stream, and the disk writer that drains the bounded channel.  Then the
task waits for the hash of `FILE_SENT`, compares, and commits a staging file by
renaming it.  Every failure ends the task for good.

The bytes that a read returns are part of the label.
-/

namespace Quiczilla

open Foundation

/-- The calls before the first read. -/
inductive OpenTarget where
  | parentFailed
  | failed
  | seekFailed
  | opened
  deriving DecidableEq, Repr

inductive RecvLabel where
  | start
  | openTarget (outcome : OpenTarget)
  | receive (chunk : List UInt8)
  | receiveFails
  | endReceive
  | writeChunk
  | writeFails (length : Nat)
  | report
  | closeFile (flushFails rehashFails : Bool)
  | verify (renameFails : Bool)
  | hashClosed
  deriving DecidableEq, Repr

/-- `target_write_path`. -/
def RecvJob.targetWritePath (job : RecvJob) : UnixPath :=
  if job.usePart then getPartPath job.destPath else job.destPath

theorem targetWritePath_part
    {job : RecvJob} (staged : job.usePart = true) :
    job.targetWritePath = getPartPath job.destPath :=
  if_pos staged

theorem targetWritePath_dest
    {job : RecvJob} (direct : job.usePart = false) :
    job.targetWritePath = job.destPath := by
  rw [RecvJob.targetWritePath, direct]
  exact if_neg Bool.false_ne_true

/-- The directories that `create_dir_all` visits. -/
def RecvJob.ancestors (job : RecvJob) : List UnixPath :=
  ((parent job.destPath).getD []).inits.filter (· ≠ [])

/-- Report a failed receive and leave the task. -/
def Peer.failReceive (peer : Peer) (status : FileTransferStatus) : Peer :=
  Peer.emit
    (Peer.send { peer with receiver := .stopped } .receivedFileFailed 0)
    (.transferComplete status)

def Peer.withReceiving (peer : Peer) (receiving : Receiving) : Peer :=
  { peer with receiver := .receiving receiving }

/-- The target is opened in place for a resumed receive and created
otherwise. -/
def RecvJob.openTarget (job : RecvJob) (files : Files) : Option Files :=
  if 0 < job.resumeOffset then files.openWrite job.targetWritePath
  else files.create job.targetWritePath

def RecvJob.begin (job : RecvJob) : Receiving where
  job := job
  targetWritePath := job.targetWritePath
  totalReceived := job.resumeOffset
  chunks := []
  stored := []
  writerAlive := true
  loopEnd := none

def Peer.openTarget
    (peer : Peer) (job : RecvJob) (outcome : OpenTarget) : Option Peer :=
  match outcome, peer.files.ensureDirectories job.ancestors with
  | .parentFailed, _ => some (peer.failReceive .etc)
  | .failed, some files =>
      some (Peer.failReceive { peer with files := files } .etc)
  | .seekFailed, some files =>
      if 0 < job.resumeOffset then
        (job.openTarget files).map fun opened =>
          (peer.touch [job.targetWritePath] opened).failReceive .etc
      else none
  | .opened, some files =>
      (job.openTarget files).map fun opened =>
        (peer.touch [job.targetWritePath] opened).withReceiving job.begin
  | _, none => none

/-- `file_recv.read` of at most the missing bytes, and `chunk_tx.send`. -/
def Peer.receive
    (peer : Peer) (receiving : Receiving) (chunk : List UInt8) :
    Option Peer :=
  if receiving.loopEnd = none ∧
      receiving.totalReceived < receiving.job.fileSize ∧
      peer.isHeld = false ∧ chunk ≠ [] ∧
      chunk.length ≤
        min (receiving.job.fileSize - receiving.totalReceived)
          fileChunkSize ∧
      receiving.writerAlive = true ∧
      receiving.chunks.length < chunkChannelCapacity then
    some
      (peer.withReceiving
        { receiving with
          totalReceived := receiving.totalReceived + chunk.length
          chunks := receiving.chunks ++ [chunk]
          loopEnd := if peer.cancelled then some false else none })
  else none

/-- End of the stream, a read error, or a disk writer that has gone. -/
def Peer.receiveFails
    (peer : Peer) (receiving : Receiving) : Option Peer :=
  if receiving.loopEnd = none ∧
      receiving.totalReceived < receiving.job.fileSize then
    some (peer.withReceiving { receiving with loopEnd := some false })
  else none

def Peer.endReceive
    (peer : Peer) (receiving : Receiving) : Option Peer :=
  if receiving.loopEnd = none ∧
      receiving.job.fileSize ≤ receiving.totalReceived then
    some (peer.withReceiving { receiving with loopEnd := some true })
  else none

/-- The open handle has advanced by what was written through it. -/
def Receiving.position (receiving : Receiving) : Nat :=
  receiving.job.resumeOffset + receiving.stored.length

def Peer.storeBytes
    (peer : Peer) (receiving : Receiving) (bytes : List UInt8) : Peer :=
  peer.touch [receiving.targetWritePath]
    (peer.files.writeAt receiving.targetWritePath receiving.position
      bytes)

def Peer.storeChunk
    (peer : Peer) (receiving : Receiving) : Option Peer :=
  match receiving.writerAlive, receiving.chunks with
  | true, chunk :: rest =>
      some
        ((peer.storeBytes receiving chunk).withReceiving
          { receiving with
            chunks := rest
            stored := receiving.stored ++ chunk })
  | _, _ => none

/-- The disk writer stops with an error after some of the chunk, or because
the peer is cancelled. -/
def Peer.storeFails
    (peer : Peer) (receiving : Receiving) (length : Nat) : Option Peer :=
  match receiving.writerAlive, receiving.chunks with
  | true, chunk :: _ =>
      if length ≤ chunk.length then
        some
          ((peer.storeBytes receiving (chunk.take length)).withReceiving
            { receiving with writerAlive := false })
      else none
  | _, _ => none

/-- A resumed receive with checksum hashes the file again. -/
def RecvJob.rehashes (job : RecvJob) : Bool :=
  job.checksum && 0 < job.resumeOffset

/-- `compute_inline_hash`. -/
def RecvJob.hashesInline (job : RecvJob) : Bool :=
  job.checksum && job.resumeOffset == 0

/-- The stored file with its `actual_hash`. -/
def Peer.verifyingOf
    (peer : Peer) (receiving : Receiving) (rehashFails : Bool) :
    Verifying where
  job := receiving.job
  targetWritePath := receiving.targetWritePath
  stored := receiving.stored
  content :=
    if receiving.job.rehashes then
      (peer.files.content? receiving.targetWritePath).getD []
    else receiving.stored
  actualHash :=
    if receiving.job.rehashes then
      if rehashFails then "NONE"
      else
        (computeFileSha256 peer.files
          receiving.targetWritePath).getD "NONE"
    else if receiving.job.hashesInline then sha256Hex receiving.stored
    else "NONE"

/-- The network loop has ended and the disk writer is joined. -/
def Peer.closeFile
    (peer : Peer) (receiving : Receiving)
    (flushFails rehashFails : Bool) : Option Peer :=
  match receiving.loopEnd with
  | none => none
  | some success =>
      if receiving.writerAlive = false then
        some (peer.failReceive .etc)
      else if receiving.chunks ≠ [] then none
      else if success = false ∨ flushFails = true then
        some (peer.failReceive .etc)
      else
        some
          { peer with
            receiver :=
              .verifying (peer.verifyingOf receiving rehashFails) }

/-- `hash_ok`. -/
def hashOk (expectedHash actualHash : String) : Bool :=
  expectedHash == "NONE" || expectedHash == "SKIP" ||
    actualHash == "NONE" || eqIgnoreAsciiCase actualHash expectedHash

/-- `RECEIVED_FILE:OK` and the `Completed` event. -/
def Peer.completeReceive
    (peer : Peer) (verifying : Verifying) (expectedHash : String) : Peer :=
  Peer.emit
    (Peer.send
      { peer with
        receiver := .idle
        receipts := peer.receipts ++ [⟨verifying, expectedHash⟩] }
      .receivedFileOk verifying.job.offer)
    (.transferComplete .completed)

/-- The rename that commits a staging file. -/
def Peer.commit
    (peer : Peer) (verifying : Verifying) (renameFails : Bool) :
    Option Peer :=
  if verifying.job.usePart then
    if renameFails then none
    else
      (peer.files.rename verifying.targetWritePath
        verifying.job.destPath).map
          (peer.touch [verifying.targetWritePath, verifying.job.destPath])
  else some peer

/-- The sender's hash has arrived: compare, commit, report. -/
def Peer.verify
    (peer : Peer) (verifying : Verifying) (renameFails : Bool) :
    Option Peer :=
  match peer.hashQueue with
  | expectedHash :: rest =>
      let progressed :=
        Peer.emit { peer with hashQueue := rest }
          (.transferProgress
            (verifying.job.resumeOffset + verifying.stored.length)
            verifying.job.fileSize true)
      if hashOk expectedHash verifying.actualHash then
        match progressed.commit verifying renameFails with
        | some committed =>
            some (committed.completeReceive verifying expectedHash)
        | none => some (progressed.failReceive .hashFailed)
      else
        some (progressed.failReceive .hashFailed)
  | [] => none

/-- One step of the file receive task. -/
def Peer.recvStep (peer : Peer) (label : RecvLabel) : Option Peer :=
  match peer.receiver, label with
  | .idle, .start =>
      match peer.recvQueue with
      | job :: rest =>
          some { peer with recvQueue := rest, receiver := .opening job }
      | [] => none
  | .opening job, .openTarget outcome => peer.openTarget job outcome
  | .receiving receiving, .receive chunk => peer.receive receiving chunk
  | .receiving receiving, .receiveFails => peer.receiveFails receiving
  | .receiving receiving, .endReceive => peer.endReceive receiving
  | .receiving receiving, .writeChunk => peer.storeChunk receiving
  | .receiving receiving, .writeFails length =>
      peer.storeFails receiving length
  | .receiving receiving, .report =>
      some
        (peer.emit
          (.transferProgress receiving.totalReceived
            receiving.job.fileSize false))
  | .receiving receiving, .closeFile flushFails rehashFails =>
      peer.closeFile receiving flushFails rehashFails
  | .verifying verifying, .verify renameFails =>
      peer.verify verifying renameFails
  | .verifying _, .hashClosed =>
      if peer.mainEnded ∧ peer.hashQueue = [] then
        some { peer with receiver := .idle }
      else none
  | _, _ => none

end Quiczilla
