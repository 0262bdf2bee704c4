/-!
# Shared protocol types

The constants, messages, events and commands that both `run_peer` loops
exchange.  Sizes and offsets are unsigned 64-bit in the program; they are
natural numbers here, since nothing below multiplies or adds two of them past
a bound that the source itself checks.
-/

namespace Quiczilla

/-- 2 MiB: the unit of disk reads and the alignment of resume offsets. -/
def fileChunkSize : Nat := 2 * 1024 * 1024

/-- 20 MiB: offers at least this large are staged before they are committed. -/
def resumeThresholdBytes : Nat := 20 * 1024 * 1024

/-- 64 KiB: how much of a prefix `compute_prefix_hash` looks at. -/
def resumeFingerprintSize : Nat := 64 * 1024

def partialFileSuffix : String := ".quic-part"

/-- 64 KiB: the longest control message body the reader accepts. -/
def maxControlMessageBytes : Nat := 64 * 1024

/-- Capacity of the bounded channel between a disk task and a network task. -/
def chunkChannelCapacity : Nat := 16

inductive FileTransferStatus where
  | cancelled
  | completed
  | hashFailed
  | rejectedAlreadySending
  | rejectedAlreadyReceiving
  | rejectedUnwanted
  | etc
  deriving DecidableEq, Repr

inductive ControlMessage where
  | metadata (fileName : String) (fileSize : Nat) (resume checksum : Bool)
  | ready
  | resumeReady (offset : Nat) (prefixHash : Option String)
  | resumeOk
  | restartFromZero
  | pause
  | resume
  | rejectedUnwanted
  | rejectedAlreadyReceiving
  | rejectedAlreadySending
  | fileSent (hash : String)
  | receivedFileOk
  | receivedFileFailed
  deriving DecidableEq, Repr

/-- Commands of the embedding application, delivered on `command_rx`. -/
inductive PeerCommand where
  | sendFile (path : String) (checksum resume : Bool)
  | acceptFile (saveDir : String) (checksum resume : Bool)
  | rejectFile
  | pause
  | resume
  | disconnect
  deriving DecidableEq, Repr

/-- Events for the embedding application, sent on `event_tx`.  Of a progress
report only the integral fields are kept. -/
inductive PeerEvent where
  | connected
  | disconnected (reason : String)
  | fileOffered (fileName : String) (fileSize : Nat) (resume checksum : Bool)
  | transferProgress (bytesTransferred totalBytes : Nat) (isCompleted : Bool)
  | transferPaused
  | transferResumed
  | transferComplete (status : FileTransferStatus)
  | transferInitiationChanged (initiated : Bool)
  deriving DecidableEq, Repr

/-- `str::eq_ignore_ascii_case`. -/
def eqIgnoreAsciiCase (left right : String) : Bool :=
  left.toList.map Char.toLower == right.toList.map Char.toLower

end Quiczilla
