import Mathlib.Data.List.Basic

/-!
# The two halves of a QUIC stream

`MsQuicSendStream` and `MsQuicRecvStream` share one `StreamShared` behind a
mutex.  MsQuic calls `msquic_stream_callback` with events; the tasks of the
program call `poll_read`, `poll_write`, `poll_flush` and `poll_shutdown`.
Every one of these runs to its end under the lock, so each is one function of
the shared state.

`woken` records the wakers that were woken, in order.  The program reads none
of it.
-/

namespace Quiczilla

inductive ErrorKind where
  | connectionReset
  | brokenPipe
  | other
  deriving DecidableEq, Repr

structure IoError where
  kind : ErrorKind
  text : String
  deriving DecidableEq, Repr

/-- A waker, named by the task that it wakes. -/
abbrev Waker := Nat

/-- The heap allocated chunk that `poll_write` hands to `StreamSend`. -/
structure SendBuffer where
  data : List UInt8
  deriving DecidableEq, Repr

structure StreamShared where
  recvBuf : List UInt8
  recvWaker : Option Waker
  sendWaker : Option Waker
  isClosedRead : Bool
  isClosedWrite : Bool
  inFlightBytes : Nat
  error : Option IoError
  woken : List Waker
  deriving DecidableEq, Repr

/-- The shared state that `MsQuicStream::new` builds. -/
def StreamShared.new : StreamShared where
  recvBuf := []
  recvWaker := none
  sendWaker := none
  isClosedRead := false
  isClosedWrite := false
  inFlightBytes := 0
  error := none
  woken := []

/-- The stream events.  A receive buffer is `none` when its pointer is null,
and so is the client context of a completed send. -/
inductive StreamEvent where
  | receive (buffers : List (Option (List UInt8)))
  | sendComplete (clientContext : Option SendBuffer) (canceled : Bool)
  | peerSendShutdown
  | peerReceiveAborted
  | peerSendAborted
  | shutdownComplete
  | unhandled
  deriving DecidableEq, Repr

/-- The bytes that an event brings. -/
def StreamEvent.delivers : StreamEvent → List UInt8
  | .receive buffers => buffers.reduceOption.flatten
  | _ => []

namespace StreamShared

def wakeRecv (shared : StreamShared) : StreamShared :=
  { shared with
    recvWaker := none
    woken := shared.woken ++ shared.recvWaker.toList }

def wakeSend (shared : StreamShared) : StreamShared :=
  { shared with
    sendWaker := none
    woken := shared.woken ++ shared.sendWaker.toList }

/-- `msquic_stream_callback`. -/
def msquicStreamCallback
    (shared : StreamShared) : StreamEvent → StreamShared
  | .receive buffers =>
      wakeRecv
        { shared with
          recvBuf := shared.recvBuf ++ buffers.reduceOption.flatten }
  | .sendComplete clientContext _ =>
      match clientContext with
      | none => shared.wakeSend
      | some sent =>
          wakeSend
            { shared with
              inFlightBytes := shared.inFlightBytes - sent.data.length }
  | .peerSendShutdown => wakeRecv { shared with isClosedRead := true }
  | .peerReceiveAborted =>
      wakeSend
        { shared with
          isClosedWrite := true
          error := some ⟨.connectionReset, "Peer aborted receive"⟩ }
  | .peerSendAborted =>
      wakeRecv
        { shared with
          isClosedRead := true
          error := some ⟨.connectionReset, "Peer aborted send"⟩ }
  | .shutdownComplete =>
      wakeSend
        (wakeRecv
          { shared with isClosedRead := true, isClosedWrite := true })
  | .unhandled => shared

end StreamShared

/-- What a poll returns, and the state that it leaves. -/
inductive StreamPoll (Value : Type) where
  | pending (shared : StreamShared)
  | ready (result : Except IoError Value) (shared : StreamShared)

def StreamPoll.shared {Value : Type} : StreamPoll Value → StreamShared
  | .pending shared => shared
  | .ready _ shared => shared

namespace StreamShared

/-- `poll_read` into a buffer with `remaining` free bytes; the result is what
it puts into that buffer. -/
def pollRead
    (shared : StreamShared) (task : Waker) (remaining : Nat) :
    StreamPoll (List UInt8) :=
  match shared.error with
  | some error => .ready (.error error) shared
  | none =>
      if shared.recvBuf ≠ [] then
        .ready (.ok (shared.recvBuf.take remaining))
          { shared with recvBuf := shared.recvBuf.drop remaining }
      else if shared.isClosedRead then
        .ready (.ok []) shared
      else
        .pending { shared with recvWaker := some task }

/-- How the calls into the MsQuic library answer. -/
inductive Library where
  | unavailable (reason : String)
  | functionMissing
  | succeeded
  | failed (status : String)
  deriving DecidableEq, Repr

def maxInFlightBytes : Nat := 16 * 1024 * 1024

/-- `poll_write`; the length handed to `StreamSend` is a 32-bit field. -/
def pollWrite
    (shared : StreamShared) (task : Waker) (buffer : List UInt8)
    (streamSend : Library) : StreamPoll Nat :=
  match shared.error with
  | some error => .ready (.error error) shared
  | none =>
      if shared.isClosedWrite then
        .ready (.error ⟨.brokenPipe, "Stream closed for writing"⟩) shared
      else if maxInFlightBytes ≤ shared.inFlightBytes then
        .pending { shared with sendWaker := some task }
      else if buffer.isEmpty then
        .ready (.ok 0) shared
      else
        match streamSend with
        | .unavailable reason => .ready (.error ⟨.other, reason⟩) shared
        | .functionMissing =>
            .ready (.error ⟨.other, "StreamSend missing"⟩) shared
        | .failed status =>
            .ready
              (.error
                ⟨.other, "StreamSend failed with status 0x" ++ status⟩)
              { shared with
                inFlightBytes :=
                  shared.inFlightBytes + buffer.length % UInt32.size -
                    buffer.length % UInt32.size }
        | .succeeded =>
            .ready (.ok (buffer.length % UInt32.size))
              { shared with
                inFlightBytes :=
                  shared.inFlightBytes + buffer.length % UInt32.size }

/-- `poll_flush`. -/
def pollFlush (shared : StreamShared) (task : Waker) : StreamPoll Unit :=
  if 0 < shared.inFlightBytes then
    .pending { shared with sendWaker := some task }
  else
    .ready (.ok ()) shared

/-- `poll_shutdown`; it does not look at what `StreamShutdown` returns. -/
def pollShutdown
    (shared : StreamShared) (task : Waker) (streamShutdown : Library) :
    StreamPoll Unit :=
  if 0 < shared.inFlightBytes then
    .pending { shared with sendWaker := some task }
  else if shared.isClosedWrite then
    .ready (.ok ()) shared
  else
    match streamShutdown with
    | .unavailable reason => .ready (.error ⟨.other, reason⟩) shared
    | _ => .ready (.ok ()) { shared with isClosedWrite := true }

end StreamShared

/-- One turn at the lock: an event from MsQuic or a poll by a task. -/
inductive StreamLabel where
  | event (event : StreamEvent)
  | pollRead (task : Waker) (remaining : Nat)
  | pollWrite
      (task : Waker) (buffer : List UInt8)
      (streamSend : StreamShared.Library)
  | pollFlush (task : Waker)
  | pollShutdown (task : Waker) (streamShutdown : StreamShared.Library)
  deriving DecidableEq, Repr

/-- One turn at the lock. -/
def StreamShared.turn (shared : StreamShared) : StreamLabel → StreamShared
  | .event event => shared.msquicStreamCallback event
  | .pollRead task remaining => (shared.pollRead task remaining).shared
  | .pollWrite task buffer streamSend =>
      (shared.pollWrite task buffer streamSend).shared
  | .pollFlush task => (shared.pollFlush task).shared
  | .pollShutdown task streamShutdown =>
      (shared.pollShutdown task streamShutdown).shared

end Quiczilla
