import Quiczilla.PeerState

/-!
# The main coordination loop

What the loop of `run_peer` does with one control message and with one
command, and `handle_accept`, which both of them call.

A call that the operating system may refuse takes its outcome from `Faults`;
where the program ignores the error, the model does too.
-/

namespace Quiczilla

open Foundation

/-- Which of the fallible calls of one handler fail. -/
structure Faults where
  metadata : Bool
  truncate : Bool
  fingerprint : Bool
  create : Bool
  deriving DecidableEq, Repr

def Faults.none : Faults where
  metadata := false
  truncate := false
  fingerprint := false
  create := false

def isControl (character : Char) : Bool :=
  character.toNat < 0x20 ||
    (0x7f ≤ character.toNat && character.toNat ≤ 0x9f)

/-- `trim_matches(|c| c.is_control() || c == '\0')`. -/
@[irreducible]
def trimControls (text : String) : String :=
  String.ofList
    (((text.toList.dropWhile isControl).reverse.dropWhile
      isControl).reverse)

/-- The last component of the trimmed name, or nothing. -/
def safeName (offeredName : String) : String :=
  (fileName (components (trimControls offeredName))).getD ""

@[irreducible]
def destinationPath (saveDir offeredName : String) : UnixPath :=
  join (components (trimControls saveDir))
    (components (safeName offeredName))

/-- The staging bytes that can be kept: whole chunks, unless they exceed the
offered size. -/
def alignedOffset (existingLength size : Nat) : Nat :=
  if size < existingLength / fileChunkSize * fileChunkSize then 0
  else existingLength / fileChunkSize * fileChunkSize

def Peer.fingerprint (peer : Peer) (path : UnixPath) (faults : Faults) :
    Option String :=
  if faults.fingerprint then none
  else computePrefixHash peer.files path resumeFingerprintSize

/-- `metadata(..).map(|m| m.len()).unwrap_or(0)`. -/
def Peer.lengthOrZero (peer : Peer) (path : UnixPath) (faults : Faults) :
    Nat :=
  if faults.metadata then 0 else (peer.files.length? path).getD 0

/-- Cut the staging file back; both errors are ignored. -/
def Peer.truncateTo
    (peer : Peer) (path : UnixPath) (length : Nat) (faults : Faults) :
    Peer :=
  if faults.truncate then peer
  else
    match peer.files.setLength path length with
    | some files => peer.touch [path] files
    | none => peer

def Peer.withPartPath (peer : Peer) (path : Option UnixPath) : Peer :=
  { peer with
    coordinator := { peer.coordinator with currentPartPath := path } }

def Peer.awaitResume (peer : Peer) (job : RecvJob) : Peer :=
  { peer with
    coordinator :=
      { peer.coordinator with pendingResumeRecv := some job } }

/-- Receive from byte zero. -/
def Peer.acceptFresh (peer : Peer) (job : RecvJob) : Peer :=
  (peer.triggerRecv job).send .ready job.offer

/-- Offer to keep what is there: `path` is fingerprinted. -/
def Peer.offerResume
    (peer : Peer) (job : RecvJob) (path : UnixPath) (faults : Faults) :
    Peer :=
  (peer.awaitResume job).send
    (.resumeReady job.resumeOffset (peer.fingerprint path faults))
    job.offer

/-- `handle_accept`. -/
def Peer.handleAccept
    (peer : Peer) (accept : PendingAccept)
    (offeredName : String) (size : Nat) (faults : Faults) : Peer :=
  let destPath := destinationPath accept.saveDir offeredName
  let job (offset : Nat) (usePart : Bool) : RecvJob :=
    { destPath := destPath
      fileSize := size
      checksum := accept.checksum
      resumeOffset := offset
      usePart := usePart
      offer := peer.coordinator.offeredNumber }
  if resumeThresholdBytes ≤ size then
    let partPath := getPartPath destPath
    let staged := peer.withPartPath (some partPath)
    if peer.coordinator.offeredResume && accept.resume then
      if peer.files.isPresent partPath then
        let offset :=
          alignedOffset (peer.lengthOrZero partPath faults) size
        if 0 < offset then
          (staged.truncateTo partPath offset faults).offerResume
            (job offset true) partPath faults
        else
          staged.acceptFresh (job 0 true)
      else if peer.files.isPresent destPath &&
          peer.lengthOrZero destPath faults == size then
        staged.offerResume (job size false) destPath faults
      else
        staged.acceptFresh (job 0 true)
    else
      staged.acceptFresh (job 0 true)
  else
    (peer.withPartPath none).acceptFresh (job 0 false)

/-- `offered_file_name.take()` and `offered_file_size.take()`. -/
def Peer.clearOffer (peer : Peer) : Peer :=
  { peer with
    coordinator :=
      { peer.coordinator with
        offeredFileName := none
        offeredFileSize := none } }

def Peer.setPendingAccept
    (peer : Peer) (accept : Option PendingAccept) : Peer :=
  { peer with
    coordinator := { peer.coordinator with pendingAccept := accept } }

def Peer.setPendingSend
    (peer : Peer) (pending : Option PendingSend) : Peer :=
  { peer with
    coordinator := { peer.coordinator with pendingSendPath := pending } }

def Peer.setPaused (peer : Peer) (paused : Bool) : Peer :=
  { peer with paused := paused }

/-- The `Metadata` branch up to the events. -/
def Peer.recordOffer
    (peer : Peer) (name : String) (size : Nat) (resume checksum : Bool)
    (offer : Nat) : Peer :=
  Peer.emit
    (Peer.emit
      { peer with
        coordinator :=
          { peer.coordinator with
            offeredFileName := some name
            offeredFileSize := some size
            offeredResume := resume
            offeredNumber := offer } }
      (.transferInitiationChanged true))
    (.fileOffered name size resume checksum)

def Peer.handleMetadata
    (peer : Peer) (name : String) (size : Nat) (resume checksum : Bool)
    (offer : Nat) (faults : Faults) : Peer :=
  let offered := peer.recordOffer name size resume checksum offer
  match peer.coordinator.pendingAccept with
  | some accept =>
      ((offered.setPendingAccept none).clearOffer).handleAccept accept
        name size faults
  | none => offered

/-- The position of the offer in `pending_send_path`. -/
def Peer.lastOffer (peer : Peer) : Nat :=
  peer.coordinator.announced.length - 1

/-- Take `pending_send_path` and start sending at the offset. -/
def Peer.startPending
    (peer : Peer) (pending : PendingSend) (offset : Nat) : Peer :=
  (peer.setPendingSend none).triggerSend
    { path := pending.path
      checksum := pending.checksum
      resumeOffset := offset
      offer := peer.lastOffer }

def Peer.handleReady (peer : Peer) : Peer :=
  match peer.coordinator.pendingSendPath with
  | some pending => peer.startPending pending 0
  | none => peer

def Peer.handleResumeReady
    (peer : Peer) (offset : Nat) (prefixHash : Option String)
    (faults : Faults) : Peer :=
  match peer.coordinator.pendingSendPath with
  | some pending =>
      if 0 < offset then
        if peer.fingerprint (components pending.path) faults =
            prefixHash then
          (peer.send .resumeOk peer.lastOffer).startPending pending offset
        else
          (peer.setPendingSend
            (some { pending with resume := false })).send
              .restartFromZero peer.lastOffer
      else
        peer.startPending pending 0
  | none => peer

def Peer.clearResume (peer : Peer) : Peer :=
  { peer with
    coordinator := { peer.coordinator with pendingResumeRecv := none } }

def Peer.handleResumeOk (peer : Peer) : Peer :=
  match peer.coordinator.pendingResumeRecv with
  | some job => peer.clearResume.triggerRecv job
  | none => peer

/-- `let _ = File::create(part_path)`. -/
def Peer.recreatePart (peer : Peer) (faults : Faults) : Peer :=
  match peer.coordinator.currentPartPath with
  | some partPath =>
      if faults.create then peer
      else
        match peer.files.create partPath with
        | some files => peer.touch [partPath] files
        | none => peer
  | none => peer

def Peer.handleRestart (peer : Peer) (faults : Faults) : Peer :=
  match peer.coordinator.pendingResumeRecv with
  | some job =>
      (peer.clearResume.recreatePart faults).acceptFresh
        { job with resumeOffset := 0 }
  | none => peer

/-- What the loop does with a control message. -/
def Peer.dispatch
    (peer : Peer) (letter : Letter) (faults : Faults) : Peer :=
  match letter.message with
  | .metadata name size resume checksum =>
      peer.handleMetadata name size resume checksum letter.offer faults
  | .ready => peer.handleReady
  | .resumeReady offset prefixHash =>
      peer.handleResumeReady offset prefixHash faults
  | .resumeOk => peer.handleResumeOk
  | .restartFromZero => peer.handleRestart faults
  | .pause => (peer.setPaused true).emit .transferPaused
  | .resume => (peer.setPaused false).emit .transferResumed
  | .fileSent hash =>
      { peer with hashQueue := peer.hashQueue ++ [hash] }
  | .receivedFileOk => peer.emit (.transferComplete .completed)
  | .receivedFileFailed =>
      Peer.emit { peer with cancelled := true }
        (.transferComplete .hashFailed)
  | .rejectedUnwanted => peer.emit (.transferComplete .rejectedUnwanted)
  | .rejectedAlreadyReceiving =>
      peer.emit (.transferComplete .rejectedAlreadyReceiving)
  | .rejectedAlreadySending =>
      peer.emit (.transferComplete .rejectedAlreadySending)

def Peer.noteHandled (peer : Peer) (message : ControlMessage) : Peer :=
  { peer with handled := peer.handled ++ [message] }

def Peer.handleControl
    (peer : Peer) (letter : Letter) (faults : Faults) : Peer :=
  (peer.dispatch letter faults).noteHandled letter.message

/-- The `SendFile` branch, once `std::fs::metadata` has succeeded. -/
def Peer.announce
    (peer : Peer) (pending : PendingSend) (size : Nat) : Peer :=
  Peer.send
    (Peer.emit
      { peer with
        coordinator :=
          { peer.coordinator with
            pendingSendPath := some pending
            announced := peer.coordinator.announced ++ [pending.path] } }
      (.transferInitiationChanged true))
    (.metadata ((fileName (components pending.path)).getD "") size
      pending.resume pending.checksum)
    peer.coordinator.announced.length

def Peer.handleSendFile
    (peer : Peer) (pending : PendingSend) (faults : Faults) : Peer :=
  if faults.metadata then peer
  else
    match peer.files.length? (components pending.path) with
    | some size => peer.announce pending size
    | none => peer

def Peer.handleAcceptFile
    (peer : Peer) (accept : PendingAccept) (faults : Faults) : Peer :=
  match peer.coordinator.offeredFileName,
      peer.coordinator.offeredFileSize with
  | some name, some size =>
      peer.clearOffer.handleAccept accept name size faults
  | _, _ => peer.clearOffer.setPendingAccept (some accept)

/-- What the loop does with a command. -/
def Peer.handleCommand
    (peer : Peer) (command : PeerCommand) (faults : Faults) : Peer :=
  match command with
  | .sendFile path checksum resume =>
      peer.handleSendFile ⟨path, checksum, resume⟩ faults
  | .acceptFile saveDir checksum resume =>
      peer.handleAcceptFile ⟨saveDir, checksum, resume⟩ faults
  | .rejectFile =>
      peer.clearOffer.send .rejectedUnwanted
        peer.coordinator.offeredNumber
  | .pause =>
      ((peer.setPaused true).send .pause 0).emit .transferPaused
  | .resume =>
      ((peer.setPaused false).send .resume 0).emit .transferResumed
  | .disconnect => { peer with mainEnded := true }

end Quiczilla
