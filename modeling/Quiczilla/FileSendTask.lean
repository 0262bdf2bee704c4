import Quiczilla.PeerState

/-!
# The file send task

One iteration opens the source, seeks to the resume offset and runs two
halves: a disk reader that fills a bounded channel, and the network writer
that drains it into the file stream.  `FILE_SENT` follows once the reader has
reached the end of the file and every chunk has been written.

A label fixes the outcome of the calls that may fail and the sizes of reads.
-/

namespace Quiczilla

open Foundation

/-- The calls before the first read. -/
inductive OpenSource where
  | failed
  | seekFailed
  | opened (metadataFails : Bool)
  deriving DecidableEq, Repr

inductive SendLabel where
  | start
  | openSource (outcome : OpenSource)
  | readChunk (length : Nat)
  | readEnd
  | readFails
  | takeChunk
  | writeChunk
  | writeStops (length : Nat)
  | report
  | finish (rehashFails : Bool)
  deriving DecidableEq, Repr

/-- `*is_paused.borrow()` does not hold the writer back once the loop has
dropped the sender or the peer is cancelled. -/
def Peer.isHeld (peer : Peer) : Bool :=
  peer.paused && !peer.mainEnded && !peer.cancelled

/-- Leave the iteration; the bytes it still had to put on the stream stay
unsent. -/
def Peer.stopSending (peer : Peer) (remaining : List UInt8) : Peer :=
  { peer with
    sender := .idle
    unsent := peer.unsent ++ remaining }

/-- What an iteration still has to put on the stream. -/
def SendStream.remaining
    (stream : SendStream) (content : List UInt8) : List UInt8 :=
  stream.taken.getD [] ++ stream.chunks.flatten ++
    content.drop stream.position

/-- The source as the open handle sees it. -/
def Peer.sourceContent (peer : Peer) (job : SendJob) : List UInt8 :=
  (peer.source job.path).getD []

def Peer.withStream (peer : Peer) (stream : SendStream) : Peer :=
  { peer with sender := .streaming stream }

def SendJob.begin (job : SendJob) (totalBytes : Nat) : SendStream where
  job := job
  totalBytes := totalBytes
  position := job.resumeOffset
  hashed := []
  reader := .reading
  chunks := []
  taken := none
  bytesTransferred := job.resumeOffset

def Peer.openSource
    (peer : Peer) (job : SendJob) (outcome : OpenSource) : Option Peer :=
  match outcome, peer.files.length? (components job.path) with
  | .opened metadataFails, some length =>
      some
        (peer.withStream (job.begin (if metadataFails then 0 else length)))
  | .opened _, none => none
  | .seekFailed, _ =>
      if 0 < job.resumeOffset then
        some
          ((peer.stopSending
              ((peer.pledged job.path).drop job.resumeOffset)).emit
            (.disconnected "Failed to seek file for resumption"))
      else none
  | .failed, _ =>
      some
        ((peer.stopSending
            ((peer.pledged job.path).drop job.resumeOffset)).emit
          (.disconnected "Failed to open file to send"))

/-- Whether the disk reader hashes what it reads. -/
def SendJob.hashesInline (job : SendJob) : Bool :=
  job.checksum && job.resumeOffset == 0

/-- The reader's hash at the end of the file. -/
def SendStream.inlineHash (stream : SendStream) : String :=
  if stream.job.hashesInline then sha256Hex stream.hashed else "NONE"

/-- The hash that goes into `FILE_SENT`: for a resumed send with checksum the
background hash of the whole file. -/
def Peer.finalHash
    (peer : Peer) (stream : SendStream) (inlineHash : String)
    (rehashFails : Bool) : String :=
  if stream.job.checksum && 0 < stream.job.resumeOffset then
    if rehashFails then "NONE"
    else
      (computeFileSha256 peer.files
        (components stream.job.path)).getD "NONE"
  else inlineHash

/-- Put bytes on the file stream. -/
def Peer.put (peer : Peer) (bytes : List UInt8) : Peer :=
  { peer with
    fileOut := peer.fileOut ++ bytes
    fileSent := peer.fileSent ++ bytes }

/-- `file.read` into a chunk buffer and `chunk_tx.send`. -/
def Peer.readChunk
    (peer : Peer) (stream : SendStream) (length : Nat) : Option Peer :=
  let bytes :=
    ((peer.sourceContent stream.job).drop stream.position).take length
  if stream.reader = .reading ∧ 0 < length ∧ length ≤ fileChunkSize ∧
      bytes.length = length ∧
      stream.chunks.length < chunkChannelCapacity then
    some
      (peer.withStream
        { stream with
          position := stream.position + length
          hashed := stream.hashed ++ bytes
          chunks := stream.chunks ++ [bytes] })
  else none

/-- `file.read` reports the end of the file; a directory cannot be read. -/
def Peer.readEnd (peer : Peer) (stream : SendStream) : Option Peer :=
  match peer.source stream.job.path with
  | some content =>
      if stream.reader = .reading ∧ content.length ≤ stream.position then
        some
          (peer.withStream
            { stream with reader := .finished stream.inlineHash })
      else none
  | none => none

/-- The whole chunk is written; a cancelled peer leaves the loop after it. -/
def Peer.writeChunk (peer : Peer) (stream : SendStream) : Option Peer :=
  match stream.taken with
  | some chunk =>
      if peer.isHeld then none
      else if peer.cancelled then
        some
          ((peer.put chunk).stopSending
            ({ stream with taken := none }.remaining
              (peer.pledged stream.job.path)))
      else
        some
          ((peer.put chunk).withStream
            { stream with
              taken := none
              bytesTransferred :=
                stream.bytesTransferred + chunk.length })
  | none => none

/-- The write fails or is cancelled after some of the chunk. -/
def Peer.writeStops
    (peer : Peer) (stream : SendStream) (length : Nat) : Option Peer :=
  match stream.taken with
  | some chunk =>
      if length ≤ chunk.length ∧ peer.isHeld = false then
        some
          ((peer.put (chunk.take length)).stopSending
            ({ stream with taken := some (chunk.drop length) }.remaining
              (peer.pledged stream.job.path)))
      else none
  | none => none

/-- The channel is drained and the reader has ended. -/
def Peer.finishSending
    (peer : Peer) (stream : SendStream) (rehashFails : Bool) :
    Option Peer :=
  if stream.taken = none ∧ stream.chunks = [] then
    match stream.reader with
    | .reading => none
    | .failed =>
        some
          (peer.stopSending
            (stream.remaining (peer.pledged stream.job.path)))
    | .finished inlineHash =>
        some
          (Peer.send
            (Peer.emit { peer with sender := .idle }
              (.transferProgress stream.bytesTransferred
                stream.totalBytes true))
            (.fileSent (peer.finalHash stream inlineHash rehashFails))
            stream.job.offer)
  else none

/-- One step of the file send task. -/
def Peer.sendStep (peer : Peer) (label : SendLabel) : Option Peer :=
  match peer.sender, label with
  | .idle, .start =>
      match peer.sendQueue with
      | job :: rest =>
          some { peer with sendQueue := rest, sender := .opening job }
      | [] => none
  | .opening job, .openSource outcome => peer.openSource job outcome
  | .streaming stream, .readChunk length => peer.readChunk stream length
  | .streaming stream, .readEnd => peer.readEnd stream
  | .streaming stream, .readFails =>
      if stream.reader = .reading then
        some (peer.withStream { stream with reader := .failed })
      else none
  | .streaming stream, .takeChunk =>
      match stream.taken, stream.chunks with
      | none, chunk :: rest =>
          some
            (peer.withStream
              { stream with taken := some chunk, chunks := rest })
      | _, _ => none
  | .streaming stream, .writeChunk => peer.writeChunk stream
  | .streaming stream, .writeStops length => peer.writeStops stream length
  | .streaming stream, .report =>
      some
        (peer.emit
          (.transferProgress stream.bytesTransferred stream.totalBytes
            false))
  | .streaming stream, .finish rehashFails =>
      peer.finishSending stream rehashFails
  | _, _ => none

end Quiczilla
