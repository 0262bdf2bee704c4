import Quiczilla.Foundation.Sha256
import Quiczilla.Foundation.Runs

/-!
# Pipe mode

`run_pipe` spawns two tasks, `Input -> SendStream` and `RecvStream -> Output`,
and joins them.  Both are the same copy loop; the sender finishes its stream
after the loop and the receiver flushes its writer.  A label resolves what a
call on the reader or the writer returns, so the two tasks interleave freely.
The token that cancels both loops is not modelled.

`consumed`, `accepted`, `atEnd` and `finSent` record what happened; no branch
of the program reads them.
-/

namespace Quiczilla

open Foundation

def pipeBufferSize : Nat := 128 * 1024

/-- `reader.read(&mut buf)`: no bytes mean the end of the input. -/
inductive IoRead where
  | bytes (chunk : List UInt8)
  | failed
  deriving DecidableEq, Repr

/-- `write_all`: everything, or an error after `count` bytes. -/
inductive IoWrite where
  | all
  | failed (count : Nat)
  deriving DecidableEq, Repr

/-- Where a copy loop stands; `left` is after its `break`. -/
inductive CopyPhase where
  | reading
  | writing (chunk : List UInt8)
  | left
  deriving DecidableEq, Repr

/-- One copy loop.  `hasher` is what the hasher was fed. -/
structure CopyLoop where
  attached : Bool
  phase : CopyPhase
  bytes : Nat
  hasher : Option (List UInt8)
  consumed : List UInt8
  accepted : List UInt8
  atEnd : Bool
  deriving DecidableEq, Repr

namespace CopyLoop

/-- A task without a reader, or without a writer, never enters the loop. -/
def start (attached computeHash : Bool) : CopyLoop where
  attached := attached
  phase := if attached then .reading else .left
  bytes := 0
  hasher := if computeHash then some [] else none
  consumed := []
  accepted := []
  atEnd := false

def read (loop : CopyLoop) (outcome : IoRead) : Option CopyLoop :=
  match loop.phase, outcome with
  | .reading, .failed => some { loop with phase := .left }
  | .reading, .bytes [] =>
      some { loop with phase := .left, atEnd := true }
  | .reading, .bytes chunk =>
      if chunk.length ≤ pipeBufferSize then
        some
          { loop with
            phase := .writing chunk
            hasher := loop.hasher.map (· ++ chunk)
            consumed := loop.consumed ++ chunk }
      else none
  | _, _ => none

def write (loop : CopyLoop) (outcome : IoWrite) : Option CopyLoop :=
  match loop.phase, outcome with
  | .writing chunk, .all =>
      some
        { loop with
          phase := .reading
          bytes := loop.bytes + chunk.length
          accepted := loop.accepted ++ chunk }
  | .writing chunk, .failed count =>
      some
        { loop with
          phase := .left
          accepted := loop.accepted ++ chunk.take count }
  | _, _ => none

/-- `hasher.map(|h| hex::encode(h.finalize()))`. -/
def hash (loop : CopyLoop) : Option String :=
  loop.hasher.map sha256Hex

end CopyLoop

structure PipeSender where
  loop : CopyLoop
  finSent : Bool
  finished : Bool
  deriving DecidableEq, Repr

/-- `held` counts the accepted bytes that the writer still keeps in a buffer
of its own. -/
structure PipeReceiver where
  loop : CopyLoop
  held : Nat
  endFlushed : Bool
  finished : Bool
  deriving DecidableEq, Repr

/-- The bytes that reached the output. -/
def PipeReceiver.written (receiver : PipeReceiver) : List UInt8 :=
  receiver.loop.accepted.take
    (receiver.loop.accepted.length - receiver.held)

structure PipeState where
  sender : PipeSender
  receiver : PipeReceiver
  deriving DecidableEq, Repr

/-- The arguments of `run_pipe`: whether there is an input, whether there is an
output, and `compute_hash`. -/
structure PipeOptions where
  hasInput : Bool
  hasOutput : Bool
  computeHash : Bool
  deriving DecidableEq, Repr

def PipeState.start (options : PipeOptions) : PipeState where
  sender :=
    { loop := .start options.hasInput options.computeHash
      finSent := false
      finished := false }
  receiver :=
    { loop := .start options.hasOutput options.computeHash
      held := 0
      endFlushed := false
      finished := !options.hasOutput }

inductive PipeLabel where
  | sendRead (outcome : IoRead)
  | sendWrite (outcome : IoWrite)
  | sendShutdown (succeeded : Bool)
  | recvRead (outcome : IoRead)
  | recvWrite (outcome : IoWrite) (held : Nat)
  | recvFlush (held : Nat)
  deriving DecidableEq, Repr

/-- `send_stream.shutdown()`; its error is only logged. -/
def PipeSender.shutdown (sender : PipeSender) (succeeded : Bool) :
    Option PipeSender :=
  if sender.loop.phase = .left ∧ sender.finished = false then
    some { sender with finSent := succeeded, finished := true }
  else none

/-- `let _ = writer.flush()`: once at the end of the stream and once more
after the loop. -/
def PipeReceiver.flush (receiver : PipeReceiver) (held : Nat) :
    Option PipeReceiver :=
  if receiver.loop.phase = .left ∧ receiver.finished = false ∧
      held ≤ receiver.held then
    if receiver.loop.atEnd && !receiver.endFlushed then
      some { receiver with held := held, endFlushed := true }
    else
      some { receiver with held := held, finished := true }
  else none

def PipeReceiver.write
    (receiver : PipeReceiver) (outcome : IoWrite) (held : Nat) :
    Option PipeReceiver :=
  match receiver.loop.write outcome with
  | some loop =>
      if held + receiver.loop.accepted.length ≤
          receiver.held + loop.accepted.length then
        some { receiver with loop := loop, held := held }
      else none
  | none => none

/-- One call of one of the two tasks. -/
def pipeStep (state : PipeState) : PipeLabel → Option PipeState
  | .sendRead outcome =>
      (state.sender.loop.read outcome).map fun loop =>
        { state with sender := { state.sender with loop := loop } }
  | .sendWrite outcome =>
      (state.sender.loop.write outcome).map fun loop =>
        { state with sender := { state.sender with loop := loop } }
  | .sendShutdown succeeded =>
      (state.sender.shutdown succeeded).map fun sender =>
        { state with sender := sender }
  | .recvRead outcome =>
      (state.receiver.loop.read outcome).map fun loop =>
        { state with receiver := { state.receiver with loop := loop } }
  | .recvWrite outcome held =>
      (state.receiver.write outcome held).map fun receiver =>
        { state with receiver := receiver }
  | .recvFlush held =>
      (state.receiver.flush held).map fun receiver =>
        { state with receiver := receiver }

structure PipeResult where
  bytesSent : Nat
  bytesReceived : Nat
  sentHash : Option String
  receivedHash : Option String
  deriving DecidableEq, Repr

/-- `run_pipe` returns once both tasks have ended, and then it returns `Ok`. -/
def PipeState.result? (state : PipeState) : Option PipeResult :=
  if state.sender.finished && state.receiver.finished then
    some
      { bytesSent := state.sender.loop.bytes
        bytesReceived := state.receiver.loop.bytes
        sentHash := state.sender.loop.hash
        receivedHash := state.receiver.loop.hash }
  else none

end Quiczilla
