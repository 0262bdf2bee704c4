import Quiczilla.Foundation.Runs
import Quiczilla.QuicStream

/-!
# Which event wakes which poll

A poll that returns `Pending` leaves its waker in the slot of its direction,
and the event that makes it ready has to take the waker from that slot.  The
error slot belongs to both directions, while each abort wakes only one of them:
the abort of the opposite direction makes a poll ready and leaves its task
asleep.
-/

namespace Quiczilla

open Foundation

/-- A poll that returned `Pending`, and whether its task was woken since. -/
structure Waiting where
  poll : StreamLabel
  task : Waker
  woken : Bool
  deriving DecidableEq, Repr

def Waiting.hear (waiting : Waiting) (wakers : List Waker) : Waiting :=
  { waiting with woken := waiting.woken || wakers.contains waiting.task }

def StreamPoll.isPending {Value : Type} : StreamPoll Value → Bool
  | .pending _ => true
  | .ready _ _ => false

/-- Whether the poll returns `Pending` in the shared state. -/
def StreamShared.pends (shared : StreamShared) : StreamLabel → Bool
  | .event _ => false
  | .pollRead task remaining => (shared.pollRead task remaining).isPending
  | .pollWrite task buffer streamSend =>
      (shared.pollWrite task buffer streamSend).isPending
  | .pollFlush task => (shared.pollFlush task).isPending
  | .pollShutdown task streamShutdown =>
      (shared.pollShutdown task streamShutdown).isPending

/-- The wakers that an event wakes. -/
def StreamShared.wokenBy
    (shared : StreamShared) (happened : StreamEvent) : List Waker :=
  (shared.msquicStreamCallback happened).woken.drop shared.woken.length

/-- The shared state with the last polls of the reader and of the writer, as
far as they wait. -/
structure WakeHistory where
  shared : StreamShared
  reader : Option Waiting
  writer : Option Waiting
  deriving DecidableEq, Repr

namespace WakeHistory

def start : WakeHistory where
  shared := .new
  reader := none
  writer := none

def waitingAfter
    (history : WakeHistory) (poll : StreamLabel) (task : Waker) :
    Option Waiting :=
  if history.shared.pends poll then some ⟨poll, task, false⟩ else none

def turn (history : WakeHistory) (label : StreamLabel) : WakeHistory :=
  match label with
  | .event happened =>
      { shared := history.shared.turn label
        reader :=
          history.reader.map
            (Waiting.hear · (history.shared.wokenBy happened))
        writer :=
          history.writer.map
            (Waiting.hear · (history.shared.wokenBy happened)) }
  | .pollRead task _ =>
      { history with
        shared := history.shared.turn label
        reader := history.waitingAfter label task }
  | .pollWrite task _ _ | .pollFlush task | .pollShutdown task _ =>
      { history with
        shared := history.shared.turn label
        writer := history.waitingAfter label task }

def step (history : WakeHistory) (label : StreamLabel) :
    Option WakeHistory :=
  some (history.turn label)

/-- When the event makes a waiting poll ready, the task of the poll has been
woken by this event or by one since the poll. -/
def WakesInTime (history : WakeHistory) : StreamLabel → Prop
  | .event happened =>
      ∀ waiting,
        history.reader = some waiting ∨ history.writer = some waiting →
          history.shared.pends waiting.poll = true →
            (history.shared.turn (.event happened)).pends waiting.poll =
                false →
              (waiting.hear (history.shared.wokenBy happened)).woken =
                true
  | _ => True

/-- The peer does not abort its receiving while a reader is asleep, or its
sending while the writer is asleep in `poll_write`, unless the task of the one
also stands in the slot of the other direction. -/
def AdmitsAbort (history : WakeHistory) : StreamLabel → Prop
  | .event .peerReceiveAborted =>
      ∀ waiting,
        history.reader = some waiting → waiting.woken = false →
          history.shared.pends waiting.poll = true →
            history.shared.sendWaker = some waiting.task
  | .event .peerSendAborted =>
      ∀ waiting task buffer streamSend,
        history.writer = some waiting → waiting.woken = false →
          waiting.poll = .pollWrite task buffer streamSend →
            history.shared.pends waiting.poll = true →
              history.shared.recvWaker = some waiting.task
  | _ => True

/-- A waiting poll is one of its direction, and until it is woken its waker
stands in the slot. -/
structure Registered (history : WakeHistory) : Prop where
  reader :
    ∀ waiting,
      history.reader = some waiting →
        (∃ remaining, waiting.poll = .pollRead waiting.task remaining) ∧
          (waiting.woken = false →
            history.shared.recvWaker = some waiting.task)
  writer :
    ∀ waiting,
      history.writer = some waiting →
        ((∃ buffer streamSend,
            waiting.poll = .pollWrite waiting.task buffer streamSend) ∨
          waiting.poll = .pollFlush waiting.task ∨
            ∃ streamShutdown,
              waiting.poll = .pollShutdown waiting.task streamShutdown) ∧
          (waiting.woken = false →
            history.shared.sendWaker = some waiting.task)

end WakeHistory

/-! ## What the polls wait for, and whom the events wake -/

def StreamEvent.wakesRecv : StreamEvent → Bool
  | .receive _ | .peerSendShutdown | .peerSendAborted
  | .shutdownComplete => true
  | .sendComplete _ _ | .peerReceiveAborted | .unhandled => false

def StreamEvent.wakesSend : StreamEvent → Bool
  | .sendComplete _ _ | .peerReceiveAborted | .shutdownComplete => true
  | .receive _ | .peerSendShutdown | .peerSendAborted
  | .unhandled => false

namespace StreamShared

variable {shared : StreamShared}

theorem pends_read_iff {task : Waker} {remaining : Nat} :
    shared.pends (.pollRead task remaining) = true ↔
      shared.error = none ∧ shared.recvBuf = [] ∧
        shared.isClosedRead = false := by
  unfold pends pollRead
  cases failure : shared.error with
  | some error => simp [StreamPoll.isPending]
  | none =>
      by_cases empty : shared.recvBuf = []
      · by_cases closed : shared.isClosedRead = true
        · simp [empty, closed, StreamPoll.isPending]
        · simp [empty, closed, StreamPoll.isPending]
      · simp [empty, StreamPoll.isPending]

theorem pends_write_iff
    {task : Waker} {buffer : List UInt8} {streamSend : Library} :
    shared.pends (.pollWrite task buffer streamSend) = true ↔
      shared.error = none ∧ shared.isClosedWrite = false ∧
        maxInFlightBytes ≤ shared.inFlightBytes := by
  unfold pends pollWrite
  cases failure : shared.error with
  | some error => simp [StreamPoll.isPending]
  | none =>
      by_cases closed : shared.isClosedWrite = true
      · simp [closed, StreamPoll.isPending]
      · by_cases full : maxInFlightBytes ≤ shared.inFlightBytes
        · simp [closed, full, StreamPoll.isPending]
        · by_cases empty : buffer.isEmpty = true
          · simp [closed, full, empty, StreamPoll.isPending]
          · cases streamSend <;>
              simp [closed, full, empty, StreamPoll.isPending]

theorem pends_flush_iff {task : Waker} :
    shared.pends (.pollFlush task) = true ↔ 0 < shared.inFlightBytes := by
  unfold pends pollFlush
  by_cases flying : 0 < shared.inFlightBytes
  · simp [flying, StreamPoll.isPending]
  · simp [flying, StreamPoll.isPending]

theorem pends_shutdown_iff
    {task : Waker} {streamShutdown : Library} :
    shared.pends (.pollShutdown task streamShutdown) = true ↔
      0 < shared.inFlightBytes := by
  unfold pends pollShutdown
  by_cases flying : 0 < shared.inFlightBytes
  · simp [flying, StreamPoll.isPending]
  · by_cases closed : shared.isClosedWrite = true
    · simp [flying, closed, StreamPoll.isPending]
    · cases streamShutdown <;>
        simp [flying, closed, StreamPoll.isPending]

/-- An event wakes what stands in the slots that it takes from. -/
theorem wokenBy_eq (happened : StreamEvent) :
    shared.wokenBy happened =
      (if happened.wakesRecv then shared.recvWaker.toList else []) ++
        if happened.wakesSend then shared.sendWaker.toList else [] := by
  unfold wokenBy
  cases happened with
  | sendComplete clientContext canceled =>
      cases clientContext <;>
        simp [msquicStreamCallback, wakeSend, StreamEvent.wakesRecv,
          StreamEvent.wakesSend]
  | _ =>
      simp [msquicStreamCallback, wakeSend, wakeRecv,
        StreamEvent.wakesRecv, StreamEvent.wakesSend]

theorem slots_after (happened : StreamEvent) :
    (shared.turn (.event happened)).recvWaker =
        (if happened.wakesRecv then none else shared.recvWaker) ∧
      (shared.turn (.event happened)).sendWaker =
        if happened.wakesSend then none else shared.sendWaker := by
  unfold turn
  cases happened with
  | sendComplete clientContext canceled =>
      cases clientContext <;>
        simp [msquicStreamCallback, wakeSend, StreamEvent.wakesRecv,
          StreamEvent.wakesSend]
  | _ =>
      simp [msquicStreamCallback, wakeSend, wakeRecv,
        StreamEvent.wakesRecv, StreamEvent.wakesSend]

/-- Without a wake of the reader and without the abort of its own sending, an
event leaves the read side as it is. -/
theorem pends_read_after
    {task : Waker} {remaining : Nat} {happened : StreamEvent}
    (noWake : happened.wakesRecv = false)
    (pends : shared.pends (.pollRead task remaining) = true) :
    (shared.turn (.event happened)).pends (.pollRead task remaining) =
        false ↔
      happened = .peerReceiveAborted := by
  obtain ⟨noError, empty, opened⟩ := pends_read_iff.mp pends
  rw [← Bool.not_eq_true, pends_read_iff]
  unfold turn
  cases happened with
  | receive buffers => cases noWake
  | peerSendShutdown => cases noWake
  | peerSendAborted => cases noWake
  | shutdownComplete => cases noWake
  | sendComplete clientContext canceled =>
      cases clientContext <;>
        simp [msquicStreamCallback, wakeSend, noError, empty, opened]
  | peerReceiveAborted => simp [msquicStreamCallback, wakeSend]
  | unhandled => simp [msquicStreamCallback, noError, empty, opened]

/-- Likewise for a writer that waits for room. -/
theorem pends_write_after
    {task : Waker} {buffer : List UInt8} {streamSend : Library}
    {happened : StreamEvent} (noWake : happened.wakesSend = false)
    (pends :
      shared.pends (.pollWrite task buffer streamSend) = true) :
    (shared.turn (.event happened)).pends
          (.pollWrite task buffer streamSend) =
        false ↔
      happened = .peerSendAborted := by
  obtain ⟨noError, opened, full⟩ := pends_write_iff.mp pends
  rw [← Bool.not_eq_true, pends_write_iff]
  unfold turn
  cases happened with
  | sendComplete clientContext canceled => cases noWake
  | peerReceiveAborted => cases noWake
  | shutdownComplete => cases noWake
  | receive buffers =>
      simp [msquicStreamCallback, wakeRecv, noError, opened, full]
  | peerSendShutdown =>
      simp [msquicStreamCallback, wakeRecv, noError, opened, full]
  | peerSendAborted => simp [msquicStreamCallback, wakeRecv]
  | unhandled => simp [msquicStreamCallback, noError, opened, full]

/-- Only an event that wakes the writer lowers the counter. -/
theorem inFlight_after
    {happened : StreamEvent} (noWake : happened.wakesSend = false) :
    (shared.turn (.event happened)).inFlightBytes =
      shared.inFlightBytes := by
  unfold turn
  cases happened with
  | sendComplete clientContext canceled => cases noWake
  | peerReceiveAborted => cases noWake
  | shutdownComplete => cases noWake
  | _ => rfl

theorem mem_wokenBy_recv
    {task : Waker} {happened : StreamEvent}
    (wakes : happened.wakesRecv = true)
    (registered : shared.recvWaker = some task) :
    task ∈ shared.wokenBy happened := by
  simp [wokenBy_eq, wakes, registered]

theorem mem_wokenBy_send
    {task : Waker} {happened : StreamEvent}
    (wakes : happened.wakesSend = true)
    (registered : shared.sendWaker = some task) :
    task ∈ shared.wokenBy happened := by
  simp [wokenBy_eq, wakes, registered]

end StreamShared

theorem Waiting.hear_woken_iff
    (waiting : Waiting) (wakers : List Waker) :
    (waiting.hear wakers).woken = true ↔
      waiting.woken = true ∨ waiting.task ∈ wakers := by
  simp [Waiting.hear]

namespace WakeHistory

variable {history : WakeHistory}

/-- The reader is woken in time by every event, but by the abort of its peer's
receiving only through the other slot. -/
theorem reader_woken_iff
    (registered : history.Registered) {waiting : Waiting}
    (isReader : history.reader = some waiting)
    (pends : history.shared.pends waiting.poll = true)
    (happened : StreamEvent) :
    ((history.shared.turn (.event happened)).pends waiting.poll = false →
        (waiting.hear (history.shared.wokenBy happened)).woken = true) ↔
      (happened = .peerReceiveAborted → waiting.woken = false →
        history.shared.sendWaker = some waiting.task) := by
  obtain ⟨⟨remaining, isRead⟩, slot⟩ :=
    registered.reader waiting isReader
  rw [Waiting.hear_woken_iff]
  rw [isRead] at pends ⊢
  by_cases wakes : happened.wakesRecv = true
  · have notAbort : happened ≠ .peerReceiveAborted := by
      rintro rfl
      cases wakes
    constructor
    · intro _ isAbort
      exact absurd isAbort notAbort
    · intro _ _
      by_cases woken : waiting.woken = true
      · exact Or.inl woken
      · exact
          Or.inr
            (StreamShared.mem_wokenBy_recv wakes
              (slot (Bool.eq_false_iff.mpr woken)))
  · have noWake : happened.wakesRecv = false :=
      Bool.eq_false_iff.mpr wakes
    rw [StreamShared.pends_read_after noWake pends]
    apply forall_congr'
    rintro rfl
    rw [StreamShared.wokenBy_eq]
    by_cases woken : waiting.woken = true
    · simp [woken]
    · simp [woken, StreamEvent.wakesRecv, StreamEvent.wakesSend,
        Option.mem_toList]

theorem writer_woken_iff
    (registered : history.Registered) {waiting : Waiting}
    (isWriter : history.writer = some waiting)
    (pends : history.shared.pends waiting.poll = true)
    (happened : StreamEvent) :
    ((history.shared.turn (.event happened)).pends waiting.poll = false →
        (waiting.hear (history.shared.wokenBy happened)).woken = true) ↔
      (happened = .peerSendAborted → waiting.woken = false →
        ∀ task buffer streamSend,
          waiting.poll = .pollWrite task buffer streamSend →
            history.shared.recvWaker = some waiting.task) := by
  obtain ⟨isWrite, slot⟩ := registered.writer waiting isWriter
  rw [Waiting.hear_woken_iff]
  by_cases wakes : happened.wakesSend = true
  · have notAbort : happened ≠ .peerSendAborted := by
      rintro rfl
      cases wakes
    constructor
    · intro _ isAbort
      exact absurd isAbort notAbort
    · intro _ _
      by_cases woken : waiting.woken = true
      · exact Or.inl woken
      · exact
          Or.inr
            (StreamShared.mem_wokenBy_send wakes
              (slot (Bool.eq_false_iff.mpr woken)))
  · have noWake : happened.wakesSend = false :=
      Bool.eq_false_iff.mpr wakes
    have sameBytes :
        (history.shared.turn (.event happened)).inFlightBytes =
          history.shared.inFlightBytes :=
      StreamShared.inFlight_after noWake
    rcases isWrite with ⟨buffer, streamSend, isWrite⟩ | isFlush |
      ⟨streamShutdown, isShutdown⟩
    · rw [isWrite] at pends ⊢
      rw [StreamShared.pends_write_after noWake pends]
      apply forall_congr'
      rintro rfl
      rw [StreamShared.wokenBy_eq]
      by_cases woken : waiting.woken = true
      · simp [woken]
      · simp [woken, StreamEvent.wakesRecv, StreamEvent.wakesSend,
          Option.mem_toList]
    · rw [isFlush] at pends ⊢
      have still :
          (history.shared.turn (.event happened)).pends
            (.pollFlush waiting.task) = true := by
        rw [StreamShared.pends_flush_iff] at pends ⊢
        rw [sameBytes]
        exact pends
      simp [still]
    · rw [isShutdown] at pends ⊢
      have still :
          (history.shared.turn (.event happened)).pends
            (.pollShutdown waiting.task streamShutdown) = true := by
        rw [StreamShared.pends_shutdown_iff] at pends ⊢
        rw [sameBytes]
        exact pends
      simp [still]

/-- An event wakes every waiting poll in time exactly when it is admitted. -/
theorem wakesInTime_iff
    (registered : history.Registered) (label : StreamLabel) :
    history.WakesInTime label ↔ history.AdmitsAbort label := by
  cases label with
  | event happened =>
      have reader {waiting : Waiting}
          (isReader : history.reader = some waiting)
          (pends : history.shared.pends waiting.poll = true) :=
        reader_woken_iff registered isReader pends happened
      have writer {waiting : Waiting}
          (isWriter : history.writer = some waiting)
          (pends : history.shared.pends waiting.poll = true) :=
        writer_woken_iff registered isWriter pends happened
      constructor
      · intro inTime
        cases happened with
        | peerReceiveAborted =>
            intro waiting isReader asleep pends
            have woken := inTime waiting (.inl isReader) pends
            exact (reader isReader pends).mp woken rfl asleep
        | peerSendAborted =>
            intro waiting task buffer streamSend isWriter asleep isWrite
              pends
            have woken := inTime waiting (.inr isWriter) pends
            exact
              (writer isWriter pends).mp woken rfl asleep task buffer
                streamSend isWrite
        | _ => trivial
      · intro admits waiting isWaiting pends
        rcases isWaiting with isReader | isWriter
        · refine (reader isReader pends).mpr ?_
          rintro rfl asleep
          exact admits waiting isReader asleep pends
        · refine (writer isWriter pends).mpr ?_
          rintro rfl asleep task buffer streamSend isWrite
          exact
            admits waiting task buffer streamSend isWriter asleep isWrite
              pends
  | _ => exact Iff.rfl

theorem start_registered : start.Registered where
  reader := by
    intro waiting isReader
    cases isReader
  writer := by
    intro waiting isWriter
    cases isWriter

theorem Registered.hear
    (registered : history.Registered) (happened : StreamEvent) :
    (history.turn (.event happened)).Registered := by
  obtain ⟨recvSlot, sendSlot⟩ := history.shared.slots_after happened
  constructor
  · intro waiting isReader
    obtain ⟨before, wasReader, rfl⟩ :=
      Option.map_eq_some_iff.mp isReader
    obtain ⟨isRead, slot⟩ := registered.reader before wasReader
    refine ⟨isRead, ?_⟩
    intro asleep
    have notWoken :=
      mt (before.hear_woken_iff (history.shared.wokenBy happened)).mpr
        (Bool.eq_false_iff.mp asleep)
    rw [not_or] at notWoken
    have standing := slot (Bool.eq_false_iff.mpr notWoken.1)
    have noWake : happened.wakesRecv = false := by
      rw [Bool.eq_false_iff]
      intro wakes
      exact notWoken.2 (StreamShared.mem_wokenBy_recv wakes standing)
    change (history.shared.turn (.event happened)).recvWaker = _
    rw [recvSlot, noWake]
    exact standing
  · intro waiting isWriter
    obtain ⟨before, wasWriter, rfl⟩ :=
      Option.map_eq_some_iff.mp isWriter
    obtain ⟨isWrite, slot⟩ := registered.writer before wasWriter
    refine ⟨isWrite, ?_⟩
    intro asleep
    have notWoken :=
      mt (before.hear_woken_iff (history.shared.wokenBy happened)).mpr
        (Bool.eq_false_iff.mp asleep)
    rw [not_or] at notWoken
    have standing := slot (Bool.eq_false_iff.mpr notWoken.1)
    have noWake : happened.wakesSend = false := by
      rw [Bool.eq_false_iff]
      intro wakes
      exact notWoken.2 (StreamShared.mem_wokenBy_send wakes standing)
    change (history.shared.turn (.event happened)).sendWaker = _
    rw [sendSlot, noWake]
    exact standing

/-- A poll of the reader leaves the slot of the writer, and puts its waker into
its own when it waits. -/
theorem slots_after_read
    (shared : StreamShared) (task : Waker) (remaining : Nat) :
    (shared.turn (.pollRead task remaining)).sendWaker =
        shared.sendWaker ∧
      (shared.pends (.pollRead task remaining) = true →
        (shared.turn (.pollRead task remaining)).recvWaker =
          some task) := by
  change
    (shared.pollRead task remaining).shared.sendWaker = _ ∧
      ((shared.pollRead task remaining).isPending = true →
        (shared.pollRead task remaining).shared.recvWaker = _)
  unfold StreamShared.pollRead
  split
  · simp [StreamPoll.shared, StreamPoll.isPending]
  · split_ifs <;> simp [StreamPoll.shared, StreamPoll.isPending]

theorem slots_after_write
    (shared : StreamShared) (task : Waker) (buffer : List UInt8)
    (streamSend : StreamShared.Library) :
    (shared.turn (.pollWrite task buffer streamSend)).recvWaker =
        shared.recvWaker ∧
      (shared.pends (.pollWrite task buffer streamSend) = true →
        (shared.turn (.pollWrite task buffer streamSend)).sendWaker =
          some task) := by
  change
    (shared.pollWrite task buffer streamSend).shared.recvWaker = _ ∧
      ((shared.pollWrite task buffer streamSend).isPending = true →
        (shared.pollWrite task buffer streamSend).shared.sendWaker = _)
  unfold StreamShared.pollWrite
  split
  · simp [StreamPoll.shared, StreamPoll.isPending]
  · split_ifs
    · simp [StreamPoll.shared, StreamPoll.isPending]
    · simp [StreamPoll.shared, StreamPoll.isPending]
    · simp [StreamPoll.shared, StreamPoll.isPending]
    · cases streamSend <;>
        simp [StreamPoll.shared, StreamPoll.isPending]

theorem slots_after_flush (shared : StreamShared) (task : Waker) :
    (shared.turn (.pollFlush task)).recvWaker = shared.recvWaker ∧
      (shared.pends (.pollFlush task) = true →
        (shared.turn (.pollFlush task)).sendWaker = some task) := by
  change
    (shared.pollFlush task).shared.recvWaker = _ ∧
      ((shared.pollFlush task).isPending = true →
        (shared.pollFlush task).shared.sendWaker = _)
  unfold StreamShared.pollFlush
  split_ifs <;> simp [StreamPoll.shared, StreamPoll.isPending]

theorem slots_after_shutdown
    (shared : StreamShared) (task : Waker)
    (streamShutdown : StreamShared.Library) :
    (shared.turn (.pollShutdown task streamShutdown)).recvWaker =
        shared.recvWaker ∧
      (shared.pends (.pollShutdown task streamShutdown) = true →
        (shared.turn (.pollShutdown task streamShutdown)).sendWaker =
          some task) := by
  change
    (shared.pollShutdown task streamShutdown).shared.recvWaker = _ ∧
      ((shared.pollShutdown task streamShutdown).isPending = true →
        (shared.pollShutdown task streamShutdown).shared.sendWaker = _)
  unfold StreamShared.pollShutdown
  split_ifs
  · simp [StreamPoll.shared, StreamPoll.isPending]
  · simp [StreamPoll.shared, StreamPoll.isPending]
  · cases streamShutdown <;>
      simp [StreamPoll.shared, StreamPoll.isPending]

theorem waitingAfter_eq_some
    {poll : StreamLabel} {task : Waker} {waiting : Waiting}
    (isWaiting : history.waitingAfter poll task = some waiting) :
    history.shared.pends poll = true ∧ waiting = ⟨poll, task, false⟩ := by
  unfold waitingAfter at isWaiting
  by_cases pends : history.shared.pends poll = true
  · rw [if_pos pends] at isWaiting
    exact ⟨pends, (Option.some.inj isWaiting).symm⟩
  · rw [if_neg pends] at isWaiting
    cases isWaiting

theorem turn_registered
    (registered : history.Registered) (label : StreamLabel) :
    (history.turn label).Registered := by
  cases label with
  | event happened => exact registered.hear happened
  | pollRead task remaining =>
      obtain ⟨sameSend, standing⟩ :=
        slots_after_read history.shared task remaining
      constructor
      · intro waiting isReader
        obtain ⟨pends, rfl⟩ := waitingAfter_eq_some isReader
        exact ⟨⟨remaining, rfl⟩, fun _ => standing pends⟩
      · intro waiting isWriter
        obtain ⟨isWrite, slot⟩ := registered.writer waiting isWriter
        exact ⟨isWrite, fun asleep => sameSend.trans (slot asleep)⟩
  | pollWrite task buffer streamSend =>
      obtain ⟨sameRecv, standing⟩ :=
        slots_after_write history.shared task buffer streamSend
      constructor
      · intro waiting isReader
        obtain ⟨isRead, slot⟩ := registered.reader waiting isReader
        exact ⟨isRead, fun asleep => sameRecv.trans (slot asleep)⟩
      · intro waiting isWriter
        obtain ⟨pends, rfl⟩ := waitingAfter_eq_some isWriter
        exact
          ⟨.inl ⟨buffer, streamSend, rfl⟩, fun _ => standing pends⟩
  | pollFlush task =>
      obtain ⟨sameRecv, standing⟩ :=
        slots_after_flush history.shared task
      constructor
      · intro waiting isReader
        obtain ⟨isRead, slot⟩ := registered.reader waiting isReader
        exact ⟨isRead, fun asleep => sameRecv.trans (slot asleep)⟩
      · intro waiting isWriter
        obtain ⟨pends, rfl⟩ := waitingAfter_eq_some isWriter
        exact ⟨.inr (.inl rfl), fun _ => standing pends⟩
  | pollShutdown task streamShutdown =>
      obtain ⟨sameRecv, standing⟩ :=
        slots_after_shutdown history.shared task streamShutdown
      constructor
      · intro waiting isReader
        obtain ⟨isRead, slot⟩ := registered.reader waiting isReader
        exact ⟨isRead, fun asleep => sameRecv.trans (slot asleep)⟩
      · intro waiting isWriter
        obtain ⟨pends, rfl⟩ := waitingAfter_eq_some isWriter
        exact
          ⟨.inr (.inr ⟨streamShutdown, rfl⟩), fun _ => standing pends⟩

/-- Nothing stops a turn at the lock. -/
theorem turns_run (history : WakeHistory) (labels : List StreamLabel) :
    ∃ target, Run step anyStep history labels target := by
  induction labels generalizing history with
  | nil => exact ⟨history, Run.refl history⟩
  | cons label rest inductionHypothesis =>
      obtain ⟨target, run⟩ := inductionHypothesis (history.turn label)
      exact ⟨target, Run.cons trivial rfl run⟩

end WakeHistory

open WakeHistory in
/-- In every interleaving of events and polls, every waiting poll is woken in
time exactly when no abort reaches a direction whose task sleeps in the other
one. -/
theorem polls_woken_exactly (labels : List StreamLabel) :
    Throughout step start labels WakesInTime ↔
      Throughout step start labels AdmitsAbort := by
  obtain ⟨history, run⟩ := start.turns_run labels
  refine run.throughout_congr Registered ?_ ?_ start_registered
  · intro source label target registered _ stepped
    cases stepped
    exact turn_registered registered label
  · intro source label registered _
    exact wakesInTime_iff registered label

open WakeHistory in
/-- The reader waits, the peer aborts its receiving, and the read would fail at
once, but nobody is woken. -/
theorem reader_sleeps_through_abort :
    ((start.turn (.pollRead 1 10)).turn
          (.event .peerReceiveAborted)).shared.pends (.pollRead 1 10) =
        false ∧
      ((start.turn (.pollRead 1 10)).turn
          (.event .peerReceiveAborted)).shared.recvWaker = some 1 ∧
      ((start.turn (.pollRead 1 10)).turn
          (.event .peerReceiveAborted)).shared.woken = [] ∧
      ¬(start.turn (.pollRead 1 10)).WakesInTime
        (.event .peerReceiveAborted) := by
  refine ⟨rfl, rfl, rfl, ?_⟩
  intro inTime
  have woken :=
    inTime ⟨.pollRead 1 10, 1, false⟩ (.inl rfl) rfl rfl
  cases woken

end Quiczilla
