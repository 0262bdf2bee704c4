import Mathlib.Algebra.BigOperators.Group.List.Basic
import Mathlib.Data.List.Perm.Basic
import Mathlib.Tactic.Ring
import Quiczilla.Foundation.Runs
import Quiczilla.QuicStream

/-!
# The send window of a stream

`poll_write` boxes a copy of its buffer and hands it to `StreamSend`; the box
comes back with the one `SEND_COMPLETE` that carries it as its context, and is
freed there.  `SendAccount` keeps, beside the shared state, the boxes that
MsQuic holds and those that were freed, and the calls of `StreamShutdown`.
MsQuic chooses which box it completes next, and whether the send was cancelled.
-/

namespace Quiczilla

open Foundation

/-- What a completed send takes off the counter. -/
def StreamEvent.completes : StreamEvent → Nat
  | .sendComplete (some sent) _ => sent.data.length
  | _ => 0

namespace StreamShared

/-- Whether `poll_write` gets as far as the call of `StreamSend`. -/
def reachesSend (shared : StreamShared) (buffer : List UInt8) : Bool :=
  shared.error.isNone && !shared.isClosedWrite &&
    decide (shared.inFlightBytes < maxInFlightBytes) && !buffer.isEmpty

/-- Whether `poll_shutdown` calls `StreamShutdown`. -/
def callsShutdown
    (shared : StreamShared) (streamShutdown : Library) : Bool :=
  decide (shared.inFlightBytes = 0) && !shared.isClosedWrite &&
    match streamShutdown with
    | .unavailable _ | .functionMissing => false
    | .succeeded | .failed _ => true

end StreamShared

/-- A box is named by the number of boxes before it. -/
abbrev BoxId := Nat

structure SendAccount where
  shared : StreamShared
  allocated : Nat
  /-- The boxes that `StreamSend` took and no `SEND_COMPLETE` returned. -/
  outstanding : List (BoxId × SendBuffer)
  freed : List BoxId
  accepted : List BoxId
  delivered : List BoxId
  cancelled : List BoxId
  /-- Whether `PEER_RECEIVE_ABORTED` was recorded. -/
  aborted : Bool
  /-- The longest buffer that was boxed. -/
  largest : Nat
  /-- What was outstanding at each call of `StreamShutdown`. -/
  shutdowns : List (List BoxId)
  deriving DecidableEq, Repr

inductive WindowLabel where
  /-- MsQuic completes one of the boxes that it holds. -/
  | completes (position : Nat) (canceled : Bool)
  | turn (label : StreamLabel)
  deriving DecidableEq, Repr

namespace SendAccount

def start : SendAccount where
  shared := .new
  allocated := 0
  outstanding := []
  freed := []
  accepted := []
  delivered := []
  cancelled := []
  aborted := false
  largest := 0
  shutdowns := []

def held (account : SendAccount) : List BoxId :=
  account.outstanding.map Prod.fst

def outstandingBytes (account : SendAccount) : Nat :=
  (account.outstanding.map fun entry => entry.2.data.length).sum

def completed
    (account : SendAccount) (position : Nat) (canceled : Bool)
    (entry : BoxId × SendBuffer) : SendAccount :=
  { account with
    shared :=
      account.shared.turn
        (.event (.sendComplete (some entry.2) canceled))
    outstanding := account.outstanding.eraseIdx position
    freed := account.freed ++ [entry.1]
    delivered :=
      if canceled then account.delivered
      else account.delivered ++ [entry.1]
    cancelled :=
      if canceled then account.cancelled ++ [entry.1]
      else account.cancelled }

/-- The box of a write is taken by `StreamSend` or freed at once. -/
def written
    (account : SendAccount) (task : Waker) (buffer : List UInt8)
    (streamSend : StreamShared.Library) : SendAccount :=
  let shared :=
    account.shared.turn (.pollWrite task buffer streamSend)
  if account.shared.reachesSend buffer then
    match streamSend with
    | .succeeded =>
        { account with
          shared := shared
          allocated := account.allocated + 1
          outstanding :=
            account.outstanding ++ [(account.allocated, SendBuffer.mk buffer)]
          accepted := account.accepted ++ [account.allocated]
          largest := max account.largest buffer.length }
    | .failed _ =>
        { account with
          shared := shared
          allocated := account.allocated + 1
          freed := account.freed ++ [account.allocated]
          largest := max account.largest buffer.length }
    | _ => { account with shared := shared }
  else { account with shared := shared }

def shutDown
    (account : SendAccount) (task : Waker)
    (streamShutdown : StreamShared.Library) : SendAccount :=
  { account with
    shared := account.shared.turn (.pollShutdown task streamShutdown)
    shutdowns :=
      if account.shared.callsShutdown streamShutdown then
        account.shutdowns ++ [account.held]
      else account.shutdowns }

/-- One turn at the lock.  A `SEND_COMPLETE` with a context is that of a box
that MsQuic holds. -/
def step (account : SendAccount) : WindowLabel → Option SendAccount
  | .completes position canceled =>
      (account.outstanding[position]?).map
        (account.completed position canceled)
  | .turn (.event (.sendComplete (some _) _)) => none
  | .turn (.event happened) =>
      some
        { account with
          shared := account.shared.turn (.event happened)
          aborted :=
            account.aborted || happened == .peerReceiveAborted }
  | .turn (.pollWrite task buffer streamSend) =>
      some (account.written task buffer streamSend)
  | .turn (.pollShutdown task streamShutdown) =>
      some (account.shutDown task streamShutdown)
  | .turn (.pollRead task remaining) =>
      some
        { account with
          shared := account.shared.turn (.pollRead task remaining) }
  | .turn (.pollFlush task) =>
      some { account with shared := account.shared.turn (.pollFlush task) }

/-- The length of a buffer is written into a 32-bit field. -/
def ShortBuffers (_ : SendAccount) : WindowLabel → Prop
  | .turn (.pollWrite _ buffer _) => buffer.length < UInt32.size
  | _ => True

instance (account : SendAccount) :
    ∀ label : WindowLabel, Decidable (account.ShortBuffers label)
  | .turn (.pollWrite _ buffer _) =>
      inferInstanceAs (Decidable (buffer.length < UInt32.size))
  | .turn (.pollRead _ _) | .turn (.pollFlush _)
  | .turn (.pollShutdown _ _) | .turn (.event _) | .completes _ _ =>
      isTrue trivial

/-- The counter counts what MsQuic holds, and every box is held or freed. -/
structure Balanced (account : SendAccount) : Prop where
  inFlight : account.shared.inFlightBytes = account.outstandingBytes
  boxes :
    (account.freed ++ account.held).Perm (List.range account.allocated)
  nonempty : ∀ entry ∈ account.outstanding, 0 < entry.2.data.length
  window :
    account.shared.inFlightBytes <
      StreamShared.maxInFlightBytes + account.largest
  answered :
    (account.delivered ++ account.cancelled ++ account.held).Perm
      account.accepted
  shutdowns :
    account.shutdowns = [] ∨
      (account.shutdowns = [[]] ∧ account.shared.isClosedWrite = true)

end SendAccount

namespace StreamShared

/-- Only a send that MsQuic takes changes the counter in `poll_write`; a send
that fails at once is undone. -/
theorem turn_pollWrite
    (shared : StreamShared) (task : Waker) (buffer : List UInt8)
    (streamSend : Library) :
    (shared.turn (.pollWrite task buffer streamSend)).isClosedWrite =
        shared.isClosedWrite ∧
      (shared.turn (.pollWrite task buffer streamSend)).inFlightBytes =
        shared.inFlightBytes +
          if shared.reachesSend buffer = true ∧ streamSend = .succeeded
          then buffer.length % UInt32.size
          else 0 := by
  unfold turn pollWrite reachesSend
  cases failure : shared.error with
  | some error => simp [StreamPoll.shared]
  | none =>
      by_cases closed : shared.isClosedWrite = true
      · simp [closed, StreamPoll.shared]
      · by_cases full : maxInFlightBytes ≤ shared.inFlightBytes
        · have notBelow : ¬shared.inFlightBytes < maxInFlightBytes := by
            omega
          simp [closed, full, notBelow, StreamPoll.shared]
        · have below : shared.inFlightBytes < maxInFlightBytes := by
            omega
          by_cases empty : buffer.isEmpty = true
          · simp [closed, full, empty, StreamPoll.shared]
          · cases streamSend <;>
              simp [closed, full, below, empty, StreamPoll.shared]

theorem turn_pollShutdown
    (shared : StreamShared) (task : Waker) (streamShutdown : Library) :
    (shared.turn (.pollShutdown task streamShutdown)).inFlightBytes =
        shared.inFlightBytes ∧
      (shared.isClosedWrite = true →
        (shared.turn (.pollShutdown task streamShutdown)).isClosedWrite =
          true) ∧
        (shared.callsShutdown streamShutdown = true →
          shared.inFlightBytes = 0 ∧ shared.isClosedWrite = false ∧
            (shared.turn
              (.pollShutdown task streamShutdown)).isClosedWrite =
                true) := by
  unfold turn pollShutdown callsShutdown
  by_cases flying : 0 < shared.inFlightBytes
  · have notZero : shared.inFlightBytes ≠ 0 := by
      omega
    simp [flying, notZero, StreamPoll.shared]
  · have isZero : shared.inFlightBytes = 0 := by
      omega
    by_cases closed : shared.isClosedWrite = true
    · simp [isZero, closed, StreamPoll.shared]
    · cases streamShutdown <;> simp [isZero, closed, StreamPoll.shared]

theorem turn_pollRead
    (shared : StreamShared) (task : Waker) (remaining : Nat) :
    (shared.turn (.pollRead task remaining)).inFlightBytes =
        shared.inFlightBytes ∧
      (shared.turn (.pollRead task remaining)).isClosedWrite =
        shared.isClosedWrite := by
  rw [turn, pollRead]
  split
  · exact ⟨rfl, rfl⟩
  · split_ifs <;> exact ⟨rfl, rfl⟩

theorem turn_pollFlush (shared : StreamShared) (task : Waker) :
    (shared.turn (.pollFlush task)).inFlightBytes =
        shared.inFlightBytes ∧
      (shared.turn (.pollFlush task)).isClosedWrite =
        shared.isClosedWrite := by
  rw [turn, pollFlush]
  split_ifs <;> exact ⟨rfl, rfl⟩

theorem turn_event (shared : StreamShared) (happened : StreamEvent) :
    (shared.turn (.event happened)).inFlightBytes =
        shared.inFlightBytes - happened.completes ∧
      (shared.isClosedWrite = true →
        (shared.turn (.event happened)).isClosedWrite = true) := by
  rw [turn]
  cases happened with
  | sendComplete clientContext canceled =>
      cases clientContext <;>
        simp [msquicStreamCallback, wakeSend, StreamEvent.completes]
  | _ =>
      simp [msquicStreamCallback, wakeSend, wakeRecv,
        StreamEvent.completes]

end StreamShared

namespace SendAccount

variable {account : SendAccount}

theorem start_balanced : start.Balanced where
  inFlight := rfl
  boxes := List.Perm.refl _
  nonempty := by
    intro entry member
    cases member
  window := by
    simp [start, StreamShared.new, StreamShared.maxInFlightBytes]
  answered := List.Perm.refl _
  shutdowns := Or.inl rfl

/-- A turn that touches neither the counter nor the boxes. -/
theorem Balanced.withShared
    (balanced : account.Balanced) {shared : StreamShared}
    (sameBytes : shared.inFlightBytes = account.shared.inFlightBytes)
    (keepsClosed :
      account.shared.isClosedWrite = true → shared.isClosedWrite = true)
    (aborted : Bool) :
    { account with shared := shared, aborted := aborted }.Balanced where
  inFlight := sameBytes.trans balanced.inFlight
  boxes := balanced.boxes
  nonempty := balanced.nonempty
  window := by
    have window := balanced.window
    rw [← sameBytes] at window
    exact window
  answered := balanced.answered
  shutdowns := by
    rcases balanced.shutdowns with none | ⟨once, closed⟩
    · exact Or.inl none
    · exact Or.inr ⟨once, keepsClosed closed⟩

/-- The box at a position, in front of all others. -/
theorem outstanding_perm
    {position : Nat} {entry : BoxId × SendBuffer}
    (isEntry : account.outstanding[position]? = some entry) :
    (entry :: account.outstanding.eraseIdx position).Perm
      account.outstanding := by
  obtain ⟨bound, rfl⟩ := List.getElem?_eq_some_iff.mp isEntry
  exact List.getElem_cons_eraseIdx_perm bound

theorem outstandingBytes_eq
    {position : Nat} {entry : BoxId × SendBuffer}
    (isEntry : account.outstanding[position]? = some entry) :
    account.outstandingBytes =
      entry.2.data.length +
        ((account.outstanding.eraseIdx position).map
          fun other => other.2.data.length).sum := by
  have sums :=
    ((outstanding_perm isEntry).map
      fun other => other.2.data.length).sum_nat
  rw [List.map_cons, List.sum_cons] at sums
  exact sums.symm

theorem held_perm
    {position : Nat} {entry : BoxId × SendBuffer}
    (isEntry : account.outstanding[position]? = some entry) :
    (entry.1 :: (account.outstanding.eraseIdx position).map Prod.fst).Perm
      account.held :=
  (outstanding_perm isEntry).map Prod.fst

/-- A completed box is no longer than what is counted, and goes from the boxes
that MsQuic holds to those that are freed. -/
theorem Balanced.completed
    (balanced : account.Balanced) {position : Nat}
    {entry : BoxId × SendBuffer}
    (isEntry : account.outstanding[position]? = some entry)
    (canceled : Bool) :
    entry.2.data.length ≤ account.shared.inFlightBytes ∧
      (account.completed position canceled entry).Balanced := by
  have bytes := outstandingBytes_eq isEntry
  have held := held_perm isEntry
  obtain ⟨subtracted, keepsClosed⟩ :=
    account.shared.turn_event (.sendComplete (some entry.2) canceled)
  have inFlight := balanced.inFlight
  have unclipped :
      entry.2.data.length ≤ account.shared.inFlightBytes := by
    omega
  refine ⟨unclipped, ?_⟩
  constructor
  · change _ = ((account.outstanding.eraseIdx position).map
      fun other => other.2.data.length).sum
    rw [SendAccount.completed, subtracted, StreamEvent.completes]
    omega
  · have moved :
        (account.freed ++ [entry.1] ++
            (account.outstanding.eraseIdx position).map Prod.fst).Perm
          (account.freed ++ account.held) := by
      rw [List.append_assoc]
      exact List.Perm.append_left _ held
    exact moved.trans balanced.boxes
  · intro other member
    exact balanced.nonempty other (List.mem_of_mem_eraseIdx member)
  · have window := balanced.window
    change (account.shared.turn _).inFlightBytes < _
    rw [subtracted]
    change _ < StreamShared.maxInFlightBytes + account.largest
    omega
  · refine List.Perm.trans ?_ balanced.answered
    have moved :
        ([entry.1] ++
            (account.outstanding.eraseIdx position).map Prod.fst).Perm
          account.held :=
      held
    cases canceled with
    | false =>
        change
          (account.delivered ++ [entry.1] ++ account.cancelled ++
            (account.outstanding.eraseIdx position).map Prod.fst).Perm _
        rw [List.append_assoc, List.append_assoc, List.append_assoc]
        refine List.Perm.append_left _ ?_
        rw [← List.append_assoc]
        refine (List.perm_append_comm.append_right _).trans ?_
        rw [List.append_assoc]
        exact List.Perm.append_left _ moved
    | true =>
        change
          (account.delivered ++ (account.cancelled ++ [entry.1]) ++
            (account.outstanding.eraseIdx position).map Prod.fst).Perm _
        rw [List.append_assoc, List.append_assoc, List.append_assoc]
        refine List.Perm.append_left _ ?_
        exact List.Perm.append_left _ moved
  · rcases balanced.shutdowns with none | ⟨once, closed⟩
    · exact Or.inl none
    · exact Or.inr ⟨once, keepsClosed closed⟩

/-- A box that was allocated and freed at once. -/
theorem Balanced.boxedAndFreed
    (balanced : account.Balanced) {shared : StreamShared}
    (sameBytes : shared.inFlightBytes = account.shared.inFlightBytes)
    (sameClosed :
      shared.isClosedWrite = account.shared.isClosedWrite)
    (length : Nat) :
    { account with
      shared := shared
      allocated := account.allocated + 1
      freed := account.freed ++ [account.allocated]
      largest := max account.largest length }.Balanced where
  inFlight := sameBytes.trans balanced.inFlight
  boxes := by
    rw [List.range_succ]
    refine List.Perm.trans ?_ (balanced.boxes.append_right _)
    change (account.freed ++ [account.allocated] ++ account.held).Perm _
    rw [List.append_assoc, List.append_assoc]
    exact List.Perm.append_left _ List.perm_append_comm
  nonempty := balanced.nonempty
  window := by
    have window := balanced.window
    change shared.inFlightBytes < _ + max account.largest length
    omega
  answered := balanced.answered
  shutdowns := by
    rcases balanced.shutdowns with none | ⟨once, closed⟩
    · exact Or.inl none
    · exact Or.inr ⟨once, sameClosed.trans closed⟩

/-- A box that `StreamSend` took. -/
theorem Balanced.boxedAndSent
    (balanced : account.Balanced) {shared : StreamShared}
    {buffer : List UInt8}
    (reaches : account.shared.reachesSend buffer = true)
    (sent :
      shared.inFlightBytes =
        account.shared.inFlightBytes + buffer.length) :
    { account with
      shared := shared
      allocated := account.allocated + 1
      outstanding :=
        account.outstanding ++ [(account.allocated, SendBuffer.mk buffer)]
      accepted := account.accepted ++ [account.allocated]
      largest := max account.largest buffer.length }.Balanced := by
  simp only [StreamShared.reachesSend, Bool.and_eq_true,
    decide_eq_true_eq, Bool.not_eq_true', List.isEmpty_eq_false_iff]
    at reaches
  obtain ⟨⟨⟨_, opened⟩, below⟩, notEmpty⟩ := reaches
  have isHeld :
      (account.outstanding ++ [(account.allocated, SendBuffer.mk buffer)]).map
          Prod.fst =
        account.held ++ [account.allocated] := by
    rw [List.map_append]
    rfl
  constructor
  · change shared.inFlightBytes = _
    rw [sent, balanced.inFlight]
    simp [outstandingBytes]
  · rw [List.range_succ]
    refine List.Perm.trans ?_ (balanced.boxes.append_right _)
    change (account.freed ++ List.map Prod.fst _).Perm _
    rw [isHeld, ← List.append_assoc]
  · intro entry member
    rcases List.mem_append.mp member with member | member
    · exact balanced.nonempty entry member
    · rw [List.mem_singleton.mp member]
      exact List.length_pos_iff.mpr notEmpty
  · change
      shared.inFlightBytes < _ + max account.largest buffer.length
    omega
  · refine List.Perm.trans ?_ (balanced.answered.append_right _)
    change
      (account.delivered ++ account.cancelled ++ List.map Prod.fst _).Perm _
    rw [isHeld, ← List.append_assoc]
  · rcases balanced.shutdowns with none | ⟨_, closed⟩
    · exact Or.inl none
    · rw [opened] at closed
      cases closed

theorem Balanced.written
    (balanced : account.Balanced) {buffer : List UInt8}
    (short : buffer.length < UInt32.size) (task : Waker)
    (streamSend : StreamShared.Library) :
    (account.written task buffer streamSend).Balanced := by
  obtain ⟨sameClosed, bytes⟩ :=
    account.shared.turn_pollWrite task buffer streamSend
  have keepsClosed :
      account.shared.isClosedWrite = true →
        (account.shared.turn
          (.pollWrite task buffer streamSend)).isClosedWrite = true :=
    sameClosed.trans
  unfold SendAccount.written
  by_cases reaches : account.shared.reachesSend buffer = true
  · rw [if_pos reaches]
    cases streamSend with
    | succeeded =>
        rw [if_pos ⟨reaches, rfl⟩, Nat.mod_eq_of_lt short] at bytes
        exact balanced.boxedAndSent reaches bytes
    | failed status =>
        rw [if_neg (by simp)] at bytes
        exact balanced.boxedAndFreed bytes sameClosed buffer.length
    | unavailable reason =>
        rw [if_neg (by simp)] at bytes
        exact balanced.withShared bytes keepsClosed account.aborted
    | functionMissing =>
        rw [if_neg (by simp)] at bytes
        exact balanced.withShared bytes keepsClosed account.aborted
  · rw [if_neg reaches]
    rw [if_neg (fun both => reaches both.1)] at bytes
    exact balanced.withShared bytes keepsClosed account.aborted

/-- When nothing is counted, MsQuic holds no box. -/
theorem Balanced.outstanding_eq_nil
    (balanced : account.Balanced)
    (none : account.shared.inFlightBytes = 0) :
    account.outstanding = [] := by
  rw [balanced.inFlight] at none
  by_contra some
  obtain ⟨entry, member⟩ := List.exists_mem_of_ne_nil _ some
  have positive := balanced.nonempty entry member
  obtain ⟨position, bound, rfl⟩ := List.getElem_of_mem member
  have bytes := outstandingBytes_eq (List.getElem?_eq_getElem bound)
  omega

theorem Balanced.shutDown
    (balanced : account.Balanced) (task : Waker)
    (streamShutdown : StreamShared.Library) :
    (account.shutDown task streamShutdown).Balanced := by
  obtain ⟨sameBytes, keepsClosed, calls⟩ :=
    account.shared.turn_pollShutdown task streamShutdown
  have quiet :=
    balanced.withShared sameBytes keepsClosed account.aborted
  unfold SendAccount.shutDown
  by_cases called :
      account.shared.callsShutdown streamShutdown = true
  · rw [if_pos called]
    obtain ⟨none, opened, closed⟩ := calls called
    have notYet : account.shutdowns = [] := by
      rcases balanced.shutdowns with never | ⟨_, wasClosed⟩
      · exact never
      · rw [opened] at wasClosed
        cases wasClosed
    have nothingHeld : account.held = [] := by
      rw [held, balanced.outstanding_eq_nil none, List.map_nil]
    exact
      { quiet with
        shutdowns :=
          Or.inr ⟨by rw [notYet, nothingHeld]; rfl, closed⟩ }
  · rw [if_neg called]
    exact quiet

theorem step_balanced
    {next : SendAccount} {label : WindowLabel}
    (balanced : account.Balanced) (short : account.ShortBuffers label)
    (stepped : account.step label = some next) :
    next.Balanced := by
  cases label with
  | completes position canceled =>
      obtain ⟨entry, isEntry, rfl⟩ := Option.map_eq_some_iff.mp stepped
      exact (balanced.completed isEntry canceled).2
  | turn label =>
      cases label with
      | event happened =>
          obtain ⟨subtracted, keepsClosed⟩ :=
            account.shared.turn_event happened
          cases happened with
          | sendComplete clientContext canceled =>
              cases clientContext with
              | none =>
                  cases stepped
                  exact
                    balanced.withShared subtracted keepsClosed _
              | some sent => cases stepped
          | _ =>
              cases stepped
              exact balanced.withShared subtracted keepsClosed _
      | pollRead task remaining =>
          obtain ⟨sameBytes, sameClosed⟩ :=
            account.shared.turn_pollRead task remaining
          cases stepped
          exact
            balanced.withShared sameBytes sameClosed.trans
              account.aborted
      | pollWrite task buffer streamSend =>
          cases stepped
          exact balanced.written short task streamSend
      | pollFlush task =>
          obtain ⟨sameBytes, sameClosed⟩ :=
            account.shared.turn_pollFlush task
          cases stepped
          exact
            balanced.withShared sameBytes sameClosed.trans
              account.aborted
      | pollShutdown task streamShutdown =>
          cases stepped
          exact balanced.shutDown task streamShutdown

/-- Along every run with short buffers, the account is balanced. -/
theorem run_balanced
    {labels : List WindowLabel} {account : SendAccount}
    (run : Run step ShortBuffers start labels account) :
    account.Balanced :=
  run.preserves Balanced
    (fun _ _ _ balanced short stepped =>
      step_balanced balanced short stepped)
    start_balanced

end SendAccount

/-- In every run with buffers shorter than four gibibytes, the counter is what
MsQuic holds, no subtraction clips, the window is exceeded by less than one
buffer, every box is held or freed and no box is freed twice, and
`StreamShutdown` is called at most once, with nothing outstanding. -/
theorem send_window_accounted
    {labels : List WindowLabel} {account : SendAccount}
    (run :
      Run SendAccount.step SendAccount.ShortBuffers SendAccount.start
        labels account) :
    account.shared.inFlightBytes = account.outstandingBytes ∧
      (∀ (position : Nat) (entry : BoxId × SendBuffer),
        account.outstanding[position]? = some entry →
          entry.2.data.length ≤ account.shared.inFlightBytes) ∧
      (∀ task buffer status,
        (account.shared.turn
            (.pollWrite task buffer (.failed status))).inFlightBytes =
          account.shared.inFlightBytes) ∧
      account.shared.inFlightBytes <
        StreamShared.maxInFlightBytes + account.largest ∧
      account.freed.Nodup ∧
      (∀ box ∈ account.freed, box ∉ account.held) ∧
      (∀ box,
        box < account.allocated ↔
          box ∈ account.freed ∨ box ∈ account.held) ∧
      (account.shutdowns = [] ∨ account.shutdowns = [[]]) := by
  have balanced := SendAccount.run_balanced run
  have nodup := balanced.boxes.nodup_iff.mpr List.nodup_range
  rw [List.nodup_append] at nodup
  obtain ⟨freedOnce, _, disjoint⟩ := nodup
  refine
    ⟨balanced.inFlight, ?_, ?_, balanced.window, freedOnce, ?_, ?_, ?_⟩
  · intro position entry isEntry
    exact (balanced.completed isEntry false).1
  · intro task buffer status
    have bytes :=
      (account.shared.turn_pollWrite task buffer (.failed status)).2
    rw [if_neg (by simp)] at bytes
    exact bytes
  · intro box freed held
    exact disjoint box freed box held rfl
  · intro box
    rw [← List.mem_range, ← balanced.boxes.mem_iff, List.mem_append]
  · rcases balanced.shutdowns with never | ⟨once, _⟩
    · exact Or.inl never
    · exact Or.inr once

theorem send_window_accounted_cancelled :
    ∃ account,
      Run SendAccount.step SendAccount.ShortBuffers SendAccount.start
        [.turn (.pollWrite 1 [10, 20, 30] .succeeded),
          .turn (.pollWrite 1 [40] (.failed "1")),
          .turn (.pollFlush 1), .completes 0 true,
          .turn (.pollShutdown 1 .succeeded)] account ∧
        account.freed = [1, 0] ∧ account.freed.Nodup ∧
          account.shutdowns = [[]] := by
  have run :=
    run_of_guardedReplay
      (show
        guardedReplay SendAccount.step SendAccount.ShortBuffers
            SendAccount.start
            [.turn (.pollWrite 1 [10, 20, 30] .succeeded),
              .turn (.pollWrite 1 [40] (.failed "1")),
              .turn (.pollFlush 1), .completes 0 true,
              .turn (.pollShutdown 1 .succeeded)] =
          some _
        from rfl)
  exact ⟨_, run, rfl, (send_window_accounted run).2.2.2.2.1, rfl⟩

end Quiczilla
