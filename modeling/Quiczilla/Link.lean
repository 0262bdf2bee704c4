import Quiczilla.Handshake
import Quiczilla.ReceiveSide

/-!
# Two peers

The left peer sends files and the right peer receives them.  What one puts
into its outbox the other handles in the same order, and the right peer reads
what the left peer has put on the file stream.  Both loops, the left send task
and the right receive task interleave freely.
-/

namespace Quiczilla

open Foundation

structure Link where
  left : Peer
  right : Peer

def Link.initial (leftFiles rightFiles : Files) : Link where
  left := .initial leftFiles
  right := .initial rightFiles

inductive LinkLabel where
  | leftCommand (command : PeerCommand) (faults : Faults)
  | leftControl (faults : Faults)
  | leftEnds (reason : Option String)
  | leftSend (label : SendLabel)
  | rightCommand (command : PeerCommand) (faults : Faults)
  | rightControl (faults : Faults)
  | rightEnds (reason : Option String)
  | rightRecv (label : RecvLabel)
  deriving DecidableEq, Repr

/-- The commands of an application that sends. -/
def PeerCommand.sends : PeerCommand → Bool
  | .acceptFile _ _ _ => false
  | .rejectFile => false
  | _ => true

/-- The commands of an application that receives. -/
def PeerCommand.receives : PeerCommand → Bool
  | .sendFile _ _ _ => false
  | _ => true

def Link.moveLeft
    (link : Link) (label : PeerLabel) : Option Link :=
  (peerStep link.left label).map fun left =>
    { link with left := left }

def Link.moveRight
    (link : Link) (label : PeerLabel) : Option Link :=
  (peerStep link.right label).map fun right =>
    { link with right := right }

def Peer.withOutbox (peer : Peer) (outbox : List Letter) : Peer :=
  { peer with outbox := outbox }

def Peer.withFileOut (peer : Peer) (fileOut : List UInt8) : Peer :=
  { peer with fileOut := fileOut }

/-- A chunk is read from the front of the file stream. -/
def Link.moveReceive
    (link : Link) (label : RecvLabel) : Option Link :=
  match label with
  | .receive chunk =>
      if chunk.isPrefixOf link.left.fileOut then
        Link.moveRight
          { link with
            left :=
              link.left.withFileOut
                (link.left.fileOut.drop chunk.length) }
          (.recv (.receive chunk))
      else none
  | other => link.moveRight (.recv other)

def linkStep (link : Link) : LinkLabel → Option Link
  | .leftCommand command faults =>
      if command.sends then link.moveLeft (.command command faults)
      else none
  | .leftControl faults =>
      match link.right.outbox with
      | letter :: rest =>
          Link.moveLeft
            { link with right := link.right.withOutbox rest }
            (.control letter faults)
      | [] => none
  | .leftEnds reason => link.moveLeft (.loopEnds reason)
  | .leftSend label => link.moveLeft (.send label)
  | .rightCommand command faults =>
      if command.receives then
        link.moveRight (.command command faults)
      else none
  | .rightControl faults =>
      match link.left.outbox with
      | letter :: rest =>
          Link.moveRight
            { link with left := link.left.withOutbox rest }
            (.control letter faults)
      | [] => none
  | .rightEnds reason => link.moveRight (.loopEnds reason)
  | .rightRecv label => link.moveReceive label

/-- Everything that a step of the link can do. -/
inductive LinkEffect (link : Link) : LinkLabel → Link → Prop
  | leftCommand (command : PeerCommand) (faults : Faults) (left : Peer) :
      command.sends = true →
      peerStep link.left (.command command faults) = some left →
      LinkEffect link (.leftCommand command faults)
        ⟨left, link.right⟩
  | leftControl (faults : Faults) (letter : Letter) (rest : List Letter)
      (left : Peer) :
      link.right.outbox = letter :: rest →
      peerStep link.left (.control letter faults) = some left →
      LinkEffect link (.leftControl faults)
        ⟨left, link.right.withOutbox rest⟩
  | leftEnds (reason : Option String) (left : Peer) :
      peerStep link.left (.loopEnds reason) = some left →
      LinkEffect link (.leftEnds reason) ⟨left, link.right⟩
  | leftSend (label : SendLabel) (left : Peer) :
      link.left.sendStep label = some left →
      LinkEffect link (.leftSend label) ⟨left, link.right⟩
  | rightCommand (command : PeerCommand) (faults : Faults)
      (right : Peer) :
      command.receives = true →
      peerStep link.right (.command command faults) = some right →
      LinkEffect link (.rightCommand command faults)
        ⟨link.left, right⟩
  | rightControl (faults : Faults) (letter : Letter) (rest : List Letter)
      (right : Peer) :
      link.left.outbox = letter :: rest →
      peerStep link.right (.control letter faults) = some right →
      LinkEffect link (.rightControl faults)
        ⟨link.left.withOutbox rest, right⟩
  | rightEnds (reason : Option String) (right : Peer) :
      peerStep link.right (.loopEnds reason) = some right →
      LinkEffect link (.rightEnds reason) ⟨link.left, right⟩
  | received (chunk rest : List UInt8) (right : Peer) :
      link.left.fileOut = chunk ++ rest →
      link.right.recvStep (.receive chunk) = some right →
      LinkEffect link (.rightRecv (.receive chunk))
        ⟨link.left.withFileOut rest, right⟩
  | rightRecv (label : RecvLabel) (right : Peer) :
      (∀ chunk, label ≠ .receive chunk) →
      link.right.recvStep label = some right →
      LinkEffect link (.rightRecv label) ⟨link.left, right⟩

theorem moveReceive_effect
    {link next : Link} {label : RecvLabel}
    (stepped : link.moveReceive label = some next) :
    LinkEffect link (.rightRecv label) next := by
  cases label with
  | receive chunk =>
      simp only [Link.moveReceive] at stepped
      split at stepped
      · rename_i isPrefix
        obtain ⟨rest, isRest⟩ := List.isPrefixOf_iff_prefix.mp isPrefix
        obtain ⟨right, taken, rfl⟩ := Option.map_eq_some_iff.mp stepped
        have dropped :
            link.left.fileOut.drop chunk.length = rest := by
          rw [← isRest, List.drop_left]
        rw [dropped]
        exact LinkEffect.received chunk rest right isRest.symm taken
      · cases stepped
  | _ =>
      obtain ⟨right, taken, rfl⟩ := Option.map_eq_some_iff.mp stepped
      exact LinkEffect.rightRecv _ right nofun taken

theorem linkStep_effect
    {link next : Link} {label : LinkLabel}
    (stepped : linkStep link label = some next) :
    LinkEffect link label next := by
  cases label with
  | leftCommand command faults =>
      simp only [linkStep] at stepped
      split at stepped
      · rename_i sends
        obtain ⟨left, taken, rfl⟩ := Option.map_eq_some_iff.mp stepped
        exact LinkEffect.leftCommand command faults left sends taken
      · cases stepped
  | leftControl faults =>
      simp only [linkStep] at stepped
      split at stepped
      · rename_i letter rest arrived
        obtain ⟨left, taken, rfl⟩ := Option.map_eq_some_iff.mp stepped
        exact
          LinkEffect.leftControl faults letter rest left arrived taken
      · cases stepped
  | leftEnds reason =>
      obtain ⟨left, taken, rfl⟩ := Option.map_eq_some_iff.mp stepped
      exact LinkEffect.leftEnds reason left taken
  | leftSend label =>
      obtain ⟨left, taken, rfl⟩ := Option.map_eq_some_iff.mp stepped
      exact LinkEffect.leftSend label left taken
  | rightCommand command faults =>
      simp only [linkStep] at stepped
      split at stepped
      · rename_i receives
        obtain ⟨right, taken, rfl⟩ := Option.map_eq_some_iff.mp stepped
        exact
          LinkEffect.rightCommand command faults right receives taken
      · cases stepped
  | rightControl faults =>
      simp only [linkStep] at stepped
      split at stepped
      · rename_i letter rest arrived
        obtain ⟨right, taken, rfl⟩ := Option.map_eq_some_iff.mp stepped
        exact
          LinkEffect.rightControl faults letter rest right arrived
            taken
      · cases stepped
  | rightEnds reason =>
      obtain ⟨right, taken, rfl⟩ := Option.map_eq_some_iff.mp stepped
      exact LinkEffect.rightEnds reason right taken
  | rightRecv label => exact moveReceive_effect stepped

/-- The files `a` and `b`, of two bytes and of one. -/
def brokenSources : Files := fun path =>
  if path = components "a" then some (.file [1, 2])
  else if path = components "b" then some (.file [3])
  else none

/-- The reader of the first send fails behind one of its two bytes; then the
second file is offered, answered and sent. -/
def brokenOff (checksum : Bool) : List LinkLabel :=
  [.leftCommand (.sendFile "a" checksum false) .none,
    .rightControl .none,
    .rightCommand (.acceptFile "in" checksum false) .none,
    .leftControl .none,
    .leftSend .start,
    .leftSend (.openSource (.opened false)),
    .leftSend (.readChunk 1),
    .leftSend .readFails,
    .leftSend .takeChunk,
    .leftSend .writeChunk,
    .leftSend (.finish false),
    .rightRecv .start,
    .rightRecv (.openTarget .opened),
    .rightRecv (.receive [1]),
    .leftCommand (.sendFile "b" checksum false) .none,
    .rightControl .none,
    .rightCommand (.acceptFile "in" checksum false) .none,
    .leftControl .none,
    .leftSend .start,
    .leftSend (.openSource (.opened false)),
    .leftSend (.readChunk 1),
    .leftSend .readEnd,
    .leftSend .takeChunk,
    .leftSend .writeChunk,
    .leftSend (.finish false),
    .rightRecv (.receive [3]),
    .rightRecv .endReceive,
    .rightRecv .writeChunk,
    .rightRecv .writeChunk,
    .rightRecv (.closeFile false false),
    .rightControl .none,
    .rightRecv (.verify false)]

end Quiczilla
