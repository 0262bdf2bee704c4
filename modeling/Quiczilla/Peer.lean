import Quiczilla.Coordination
import Quiczilla.FileReceiveTask
import Quiczilla.Foundation.Runs

/-!
# Steps of one peer

The coordination loop and the two transfer tasks of `run_peer` interleave
freely.  What arrives from the other peer is part of the label, so that a run
of `peerStep` is a run against an arbitrary counterpart.
-/

namespace Quiczilla

open Foundation

inductive PeerLabel where
  | control (letter : Letter) (faults : Faults)
  | command (command : PeerCommand) (faults : Faults)
  | loopEnds (reason : Option String)
  | send (label : SendLabel)
  | recv (label : RecvLabel)
  deriving DecidableEq, Repr

/-- The loop is left because the control stream ended or failed, the command
channel closed, or the peer was cancelled. -/
def Peer.endLoop (peer : Peer) (reason : Option String) : Peer :=
  match reason with
  | some text =>
      Peer.emit { peer with mainEnded := true } (.disconnected text)
  | none => { peer with mainEnded := true }

def peerStep (peer : Peer) : PeerLabel → Option Peer
  | .control letter faults =>
      if peer.mainEnded then none
      else some (peer.handleControl letter faults)
  | .command command faults =>
      if peer.mainEnded then none
      else some (peer.handleCommand command faults)
  | .loopEnds reason =>
      if peer.mainEnded then none else some (peer.endLoop reason)
  | .send label => peer.sendStep label
  | .recv label => peer.recvStep label

end Quiczilla
