import Quiczilla.Foundation.BigEndian
import Quiczilla.Foundation.Runs
import Quiczilla.Types

/-!
# The control stream under `select!`

`send_control_message` writes a four-byte big-endian length and then the body.
`read_control_message` fills a four-byte buffer, checks the length and fills a
body buffer, each with `read_exact`.

The coordination loop creates a fresh `read_control_message` future on every
iteration and races it against the command channel.  When a command wins, the
reader's future is dropped, and with it every byte that its `read_exact` had
already taken out of the stream.  The state below therefore keeps what the
current future has taken apart from what is still buffered in the stream.
-/

namespace Quiczilla

open Foundation

/-- The bytes `send_control_message` writes for one message. -/
def sendControlMessage (message : String) : List UInt8 :=
  toBigEndian 4 message.utf8ByteSize ++ message.toByteArray.data.toList

/-- `send_control_msg` of the generic loop writes the same bytes. -/
def sendControlMsg (message : String) : List UInt8 :=
  sendControlMessage message

/-- How a finished `read_control_message` future ends. -/
inductive ReadOutcome where
  | message (text : String)
  | endOfStream
  | lengthExceeded (length : Nat)
  | unexpectedEof
  | invalidUtf8
  deriving DecidableEq, Repr

/-- A suspended `read_control_message` future: the buffer that its pending
`read_exact` fills, with the bytes taken so far. -/
inductive ReadFuture where
  | header (taken : List UInt8)
  | body (length : Nat) (taken : List UInt8)
  deriving DecidableEq, Repr

/-- The future of a new `select!` iteration has not read anything. -/
def ReadFuture.fresh : ReadFuture := .header []

/-- What one poll of the reader leaves: a suspended future or an outcome,
and the bytes still in the stream. -/
inductive ReadPoll where
  | pending (future : ReadFuture) (rest : List UInt8)
  | finished (outcome : ReadOutcome) (rest : List UInt8)
  deriving DecidableEq, Repr

/-- `read_exact` into a buffer of `need` bytes: everything the stream holds,
up to the missing amount. -/
def fillBuffer (need : Nat) (taken buffer : List UInt8) : List UInt8 :=
  taken ++ buffer.take (need - taken.length)

def leaveBuffer (need : Nat) (taken buffer : List UInt8) : List UInt8 :=
  buffer.drop (need - taken.length)

/-- `String::from_utf8` on the completed body. -/
def decodeBody (bytes : List UInt8) : ReadOutcome :=
  match String.fromUTF8? ⟨bytes.toArray⟩ with
  | some text => .message text
  | none => .invalidUtf8

def pollBody
    (length : Nat) (taken buffer : List UInt8) (closed : Bool) : ReadPoll :=
  if (fillBuffer length taken buffer).length < length then
    if closed then
      .finished .unexpectedEof (leaveBuffer length taken buffer)
    else
      .pending (.body length (fillBuffer length taken buffer))
        (leaveBuffer length taken buffer)
  else
    .finished (decodeBody (fillBuffer length taken buffer))
      (leaveBuffer length taken buffer)

def pollHeader
    (taken buffer : List UInt8) (closed : Bool) : ReadPoll :=
  if (fillBuffer 4 taken buffer).length < 4 then
    if closed then
      .finished .endOfStream (leaveBuffer 4 taken buffer)
    else
      .pending (.header (fillBuffer 4 taken buffer))
        (leaveBuffer 4 taken buffer)
  else if maxControlMessageBytes <
      ofBigEndian (fillBuffer 4 taken buffer) then
    .finished (.lengthExceeded (ofBigEndian (fillBuffer 4 taken buffer)))
      (leaveBuffer 4 taken buffer)
  else if ofBigEndian (fillBuffer 4 taken buffer) = 0 then
    .finished (.message "") (leaveBuffer 4 taken buffer)
  else
    pollBody (ofBigEndian (fillBuffer 4 taken buffer)) []
      (leaveBuffer 4 taken buffer) closed

/-- One poll of `read_control_message` against the bytes that have arrived. -/
def readControlMessage
    (future : ReadFuture) (buffer : List UInt8) (closed : Bool) : ReadPoll :=
  match future with
  | .header taken => pollHeader taken buffer closed
  | .body length taken => pollBody length taken buffer closed

/-- `read_control_msg` of the generic loop is the same future. -/
def readControlMsg
    (future : ReadFuture) (buffer : List UInt8) (closed : Bool) : ReadPoll :=
  readControlMessage future buffer closed

/-- The two coordination loops. -/
inductive PeerLoop where
  | runPeer
  | runPeerGeneric
  deriving DecidableEq, Repr

def PeerLoop.reader :
    PeerLoop → ReadFuture → List UInt8 → Bool → ReadPoll
  | .runPeer => readControlMessage
  | .runPeerGeneric => readControlMsg

def PeerLoop.writer : PeerLoop → String → List UInt8
  | .runPeer => sendControlMessage
  | .runPeerGeneric => sendControlMsg

/-- Why the loop left its `select!`. -/
inductive LoopEnd where
  | reader (outcome : ReadOutcome)
  | command
  | cancelled
  deriving DecidableEq, Repr

/-- The loop as its control reader sees it. -/
structure SelectState where
  buffer : List UInt8
  closed : Bool
  future : ReadFuture
  obtained : List String
  ended : Option LoopEnd
  deriving DecidableEq, Repr

def SelectState.initial : SelectState where
  buffer := []
  closed := false
  future := .fresh
  obtained := []
  ended := none

/-- What can happen next: bytes or the end of the stream arrive, `select!`
polls the reader, a command or the closed command channel wins `select!`, or
the cancellation branch wins it. -/
inductive SelectEvent where
  | arrive (chunk : List UInt8)
  | finish
  | poll
  | command (command : Option PeerCommand)
  | cancelled
  deriving DecidableEq, Repr

/-- The loop's answer to a finished reader future: a message is handed to the
handler and the next iteration starts a fresh future; anything else ends the
loop. -/
def SelectState.obtain
    (state : SelectState) (outcome : ReadOutcome) (rest : List UInt8) :
    SelectState :=
  match outcome with
  | .message text =>
      { state with
        buffer := rest
        future := .fresh
        obtained := state.obtained ++ [text] }
  | other =>
      { state with
        buffer := rest
        future := .fresh
        ended := some (.reader other) }

/-- Whether a command leaves the loop running. -/
def keepsLooping : Option PeerCommand → Bool
  | some .disconnect => false
  | some _ => true
  | none => false

/-- One step of the loop.  A winning command drops the reader's future. -/
def selectStep (loop : PeerLoop) (state : SelectState) :
    SelectEvent → Option SelectState
  | .arrive chunk =>
      if state.closed then none
      else some { state with buffer := state.buffer ++ chunk }
  | .finish =>
      if state.closed then none
      else some { state with closed := true }
  | .poll =>
      if state.ended.isSome then none
      else
        match loop.reader state.future state.buffer state.closed with
        | .pending future rest =>
            some { state with future := future, buffer := rest }
        | .finished outcome rest => some (state.obtain outcome rest)
  | .command command =>
      if state.ended.isSome then none
      else if keepsLooping command then
        some { state with future := .fresh }
      else
        some { state with future := .fresh, ended := some .command }
  | .cancelled =>
      if state.ended.isSome then none
      else
        some { state with future := .fresh, ended := some .cancelled }

end Quiczilla
