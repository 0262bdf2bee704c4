import Quiczilla.QuicStream

/-!
# What `poll_read` returns

Over any interleaving of stream events and polls, the bytes that `poll_read`
returned and the bytes still in `recv_buf` are together the bytes that were
delivered.  Whether a single read is faithful then depends on the two shared
fields that it looks at: `error`, which either direction sets, and
`is_closed_read`, which `SHUTDOWN_COMPLETE` sets as a FIN does.
-/

namespace Quiczilla

/-- The bytes that a finished read put into its buffer. -/
def StreamPoll.bytes : StreamPoll (List UInt8) → List UInt8
  | .ready (.ok bytes) _ => bytes
  | _ => []

def StreamLabel.event? : StreamLabel → Option StreamEvent
  | .event happened => some happened
  | _ => none

def StreamLabel.delivers (label : StreamLabel) : List UInt8 :=
  (label.event?.map StreamEvent.delivers).getD []

/-- The bytes that the turn returns to a reader. -/
def StreamLabel.returns (shared : StreamShared) :
    StreamLabel → List UInt8
  | .pollRead task remaining => (shared.pollRead task remaining).bytes
  | _ => []

/-- The shared state together with what happened on the stream so far. -/
structure StreamHistory where
  shared : StreamShared
  delivered : List UInt8
  returned : List UInt8
  seen : List StreamEvent
  deriving DecidableEq

namespace StreamHistory

def start : StreamHistory where
  shared := .new
  delivered := []
  returned := []
  seen := []

def turn (history : StreamHistory) (label : StreamLabel) :
    StreamHistory where
  shared := history.shared.turn label
  delivered := history.delivered ++ label.delivers
  returned := history.returned ++ label.returns history.shared
  seen := history.seen ++ label.event?.toList

def after (labels : List StreamLabel) : StreamHistory :=
  labels.foldl turn start

/-- A read with a non-empty buffer sees the end of the file only after the
peer's FIN and after every delivered byte, and an abort of the opposite
direction does not keep delivered bytes from it. -/
def ReadsFaithfully (history : StreamHistory) : StreamLabel → Prop
  | .pollRead task remaining =>
      0 < remaining →
        (∀ next,
          history.shared.pollRead task remaining = .ready (.ok []) next →
            .peerSendShutdown ∈ history.seen ∧
              history.returned = history.delivered) ∧
        (.peerReceiveAborted ∈ history.seen →
          .peerSendAborted ∉ history.seen →
            history.returned ≠ history.delivered →
              ∃ bytes next, bytes ≠ [] ∧
                history.shared.pollRead task remaining =
                  .ready (.ok bytes) next)
  | _ => True

/-- No read after `SHUTDOWN_COMPLETE` that no FIN and no abort came with, once
the buffer is empty; and none after `PEER_RECEIVE_ABORTED` alone while the
buffer still holds bytes. -/
def AdmitsRead (history : StreamHistory) : StreamLabel → Prop
  | .pollRead _ remaining =>
      0 < remaining →
        (.shutdownComplete ∈ history.seen →
          history.shared.recvBuf = [] →
            .peerSendShutdown ∈ history.seen ∨
              .peerSendAborted ∈ history.seen ∨
                .peerReceiveAborted ∈ history.seen) ∧
        (.peerReceiveAborted ∈ history.seen →
          history.shared.recvBuf ≠ [] →
            .peerSendAborted ∈ history.seen)
  | _ => True

/-- The buffer holds what was delivered and not returned, and the two fields
that a read looks at tell which events came. -/
structure Accounted (history : StreamHistory) : Prop where
  buffered :
    history.returned ++ history.shared.recvBuf = history.delivered
  closed :
    history.shared.isClosedRead = true ↔
      .peerSendShutdown ∈ history.seen ∨
        .peerSendAborted ∈ history.seen ∨
          .shutdownComplete ∈ history.seen
  failed :
    history.shared.error ≠ none ↔
      .peerSendAborted ∈ history.seen ∨
        .peerReceiveAborted ∈ history.seen

end StreamHistory

namespace StreamShared

/-- What a read looks at: the buffer and the two fields. -/
def readSide (shared : StreamShared) :
    List UInt8 × Bool × Option IoError :=
  (shared.recvBuf, shared.isClosedRead, shared.error)

theorem readSide_pollWrite
    (shared : StreamShared) (task : Waker) (buffer : List UInt8)
    (streamSend : Library) :
    (shared.pollWrite task buffer streamSend).shared.readSide =
      shared.readSide := by
  unfold pollWrite
  split
  · rfl
  · split_ifs
    · rfl
    · rfl
    · rfl
    · cases streamSend <;> rfl

theorem readSide_pollFlush (shared : StreamShared) (task : Waker) :
    (shared.pollFlush task).shared.readSide = shared.readSide := by
  unfold pollFlush
  split_ifs <;> rfl

theorem readSide_pollShutdown
    (shared : StreamShared) (task : Waker) (streamShutdown : Library) :
    (shared.pollShutdown task streamShutdown).shared.readSide =
      shared.readSide := by
  unfold pollShutdown
  split_ifs
  · rfl
  · rfl
  · cases streamShutdown <;> rfl

/-- An event appends what it delivers; the end of the peer's sending, its
abort and the end of the stream close the read side, and both aborts leave an
error. -/
theorem callback_readSide
    (shared : StreamShared) (happened : StreamEvent) :
    (shared.msquicStreamCallback happened).recvBuf =
        shared.recvBuf ++ happened.delivers ∧
      ((shared.msquicStreamCallback happened).isClosedRead = true ↔
        shared.isClosedRead = true ∨
          happened = .peerSendShutdown ∨ happened = .peerSendAborted ∨
            happened = .shutdownComplete) ∧
      ((shared.msquicStreamCallback happened).error ≠ none ↔
        shared.error ≠ none ∨
          happened = .peerSendAborted ∨
            happened = .peerReceiveAborted) := by
  cases happened with
  | sendComplete clientContext canceled =>
      cases clientContext <;>
        simp [msquicStreamCallback, wakeSend, StreamEvent.delivers]
  | _ =>
      simp [msquicStreamCallback, wakeSend, wakeRecv,
        StreamEvent.delivers]

/-- A read takes the bytes that it returns from the front of the buffer and
leaves the two fields. -/
theorem pollRead_spec
    (shared : StreamShared) (task : Waker) (remaining : Nat) :
    (shared.pollRead task remaining).bytes ++
          (shared.pollRead task remaining).shared.recvBuf =
        shared.recvBuf ∧
      (shared.pollRead task remaining).shared.isClosedRead =
        shared.isClosedRead ∧
      (shared.pollRead task remaining).shared.error = shared.error := by
  unfold pollRead
  split
  · rename_i error isError
    exact ⟨rfl, rfl, rfl⟩
  · split_ifs with buffered closed
    · refine ⟨?_, rfl, rfl⟩
      exact List.take_append_drop remaining shared.recvBuf
    · exact ⟨rfl, rfl, rfl⟩
    · exact ⟨rfl, rfl, rfl⟩

/-- A read with room returns no bytes only at an empty, closed and sound
stream. -/
theorem pollRead_ended_iff
    (shared : StreamShared) (task : Waker) {remaining : Nat}
    (room : 0 < remaining) :
    (∃ next, shared.pollRead task remaining = .ready (.ok []) next) ↔
      shared.error = none ∧ shared.recvBuf = [] ∧
        shared.isClosedRead = true := by
  unfold pollRead
  cases failure : shared.error with
  | some error =>
      simp
  | none =>
      by_cases empty : shared.recvBuf = []
      · by_cases closed : shared.isClosedRead = true
        · simp [empty, closed]
        · simp [empty, closed]
      · have taken : shared.recvBuf.take remaining ≠ [] := by
          simp [empty]
          omega
        simp [empty, taken]

/-- A read with room returns bytes exactly when the buffer holds some and no
error was recorded. -/
theorem pollRead_some_iff
    (shared : StreamShared) (task : Waker) {remaining : Nat}
    (room : 0 < remaining) :
    (∃ bytes next, bytes ≠ [] ∧
        shared.pollRead task remaining = .ready (.ok bytes) next) ↔
      shared.error = none ∧ shared.recvBuf ≠ [] := by
  unfold pollRead
  cases failure : shared.error with
  | some error =>
      simp
  | none =>
      by_cases empty : shared.recvBuf = []
      · by_cases closed : shared.isClosedRead = true
        · simp [empty, closed]
        · simp [empty, closed]
      · have taken : shared.recvBuf.take remaining ≠ [] := by
          simp [empty]
          omega
        simp [empty, taken]

end StreamShared

namespace StreamHistory

theorem start_accounted : start.Accounted where
  buffered := rfl
  closed := by simp [start, StreamShared.new]
  failed := by simp [start, StreamShared.new]

/-- A turn that keeps the read side and brings no event keeps the account. -/
theorem Accounted.of_readSide
    {history : StreamHistory} (accounted : history.Accounted)
    {label : StreamLabel}
    (silent : label.event? = none)
    (nothing : label.delivers = [] ∧ label.returns history.shared = [])
    (same :
      (history.shared.turn label).readSide = history.shared.readSide) :
    (history.turn label).Accounted := by
  simp only [StreamShared.readSide, Prod.mk.injEq] at same
  obtain ⟨sameBuffer, sameClosed, sameError⟩ := same
  constructor
  · simpa [turn, nothing.1, nothing.2, sameBuffer] using
      accounted.buffered
  · simpa [turn, silent, sameClosed] using accounted.closed
  · simpa [turn, silent, sameError] using accounted.failed

theorem event_accounted
    {history : StreamHistory} (accounted : history.Accounted)
    (happened : StreamEvent) :
    (history.turn (.event happened)).Accounted := by
  obtain ⟨appended, closing, failing⟩ :=
    history.shared.callback_readSide happened
  constructor
  · have buffered := accounted.buffered
    change
      (history.returned ++ []) ++
          (history.shared.msquicStreamCallback happened).recvBuf =
        history.delivered ++ happened.delivers
    rw [appended, List.append_nil, ← List.append_assoc, buffered]
  · refine closing.trans ?_
    rw [accounted.closed]
    cases happened <;> simp [turn, StreamLabel.event?]
  · refine failing.trans ?_
    rw [accounted.failed]
    cases happened <;> simp [turn, StreamLabel.event?]

theorem turn_accounted
    {history : StreamHistory} (accounted : history.Accounted)
    (label : StreamLabel) :
    (history.turn label).Accounted := by
  cases label with
  | event happened => exact event_accounted accounted happened
  | pollRead task remaining =>
      obtain ⟨moved, sameClosed, sameError⟩ :=
        history.shared.pollRead_spec task remaining
      constructor
      · have buffered := accounted.buffered
        rw [← moved, ← List.append_assoc] at buffered
        simpa [turn, StreamShared.turn, StreamLabel.delivers,
          StreamLabel.event?, StreamLabel.returns] using buffered
      · simpa [turn, StreamShared.turn, StreamLabel.event?, sameClosed]
          using accounted.closed
      · simpa [turn, StreamShared.turn, StreamLabel.event?, sameError]
          using accounted.failed
  | pollWrite task buffer streamSend =>
      exact
        accounted.of_readSide rfl ⟨rfl, rfl⟩
          (StreamShared.readSide_pollWrite _ task buffer streamSend)
  | pollFlush task =>
      exact
        accounted.of_readSide rfl ⟨rfl, rfl⟩
          (StreamShared.readSide_pollFlush _ task)
  | pollShutdown task streamShutdown =>
      exact
        accounted.of_readSide rfl ⟨rfl, rfl⟩
          (StreamShared.readSide_pollShutdown _ task streamShutdown)

theorem after_accounted (labels : List StreamLabel) :
    (after labels).Accounted := by
  have kept :
      ∀ history : StreamHistory, history.Accounted →
        (labels.foldl turn history).Accounted := by
    induction labels with
    | nil =>
        intro history accounted
        exact accounted
    | cons label rest inductionHypothesis =>
        intro history accounted
        exact inductionHypothesis _ (turn_accounted accounted label)
  exact kept start start_accounted

theorem Accounted.returned_eq_iff
    {history : StreamHistory} (accounted : history.Accounted) :
    history.returned = history.delivered ↔
      history.shared.recvBuf = [] := by
  rw [← accounted.buffered]
  exact List.self_eq_append_right

/-- A read of an accounted stream is faithful exactly when it is admitted. -/
theorem Accounted.faithful_iff
    {history : StreamHistory} (accounted : history.Accounted)
    (label : StreamLabel) :
    history.ReadsFaithfully label ↔ history.AdmitsRead label := by
  cases label with
  | pollRead task remaining =>
      apply imp_congr_right
      intro room
      have ended := history.shared.pollRead_ended_iff task room
      have some := history.shared.pollRead_some_iff task room
      have closed := accounted.closed
      have failed := accounted.failed
      have returned := accounted.returned_eq_iff
      have sound :
          history.shared.error = none ↔
            .peerSendAborted ∉ history.seen ∧
              .peerReceiveAborted ∉ history.seen := by
        rw [← not_or, ← failed, ne_eq, not_not]
      apply and_congr
      · constructor
        · intro faithful shutDown empty
          by_cases sendAborted : .peerSendAborted ∈ history.seen
          · exact Or.inr (Or.inl sendAborted)
          · by_cases receiveAborted : .peerReceiveAborted ∈ history.seen
            · exact Or.inr (Or.inr receiveAborted)
            · have isClosed := closed.mpr (Or.inr (Or.inr shutDown))
              have noError := sound.mpr ⟨sendAborted, receiveAborted⟩
              obtain ⟨next, isEnd⟩ :=
                ended.mpr ⟨noError, empty, isClosed⟩
              exact Or.inl (faithful next isEnd).1
        · intro admits next isEnd
          obtain ⟨noError, empty, isClosed⟩ := ended.mp ⟨next, isEnd⟩
          obtain ⟨notSent, notReceived⟩ := sound.mp noError
          refine ⟨?_, returned.mpr empty⟩
          rcases closed.mp isClosed with fin | sendAborted | shutDown
          · exact fin
          · exact absurd sendAborted notSent
          · rcases admits shutDown empty with fin | aborted | aborted
            · exact fin
            · exact absurd aborted notSent
            · exact absurd aborted notReceived
      · constructor
        · intro faithful aborted buffered
          by_contra notSent
          have missing : history.returned ≠ history.delivered :=
            fun same => buffered (returned.mp same)
          have noError := (some.mp (faithful aborted notSent missing)).1
          exact (sound.mp noError).2 aborted
        · intro admits aborted notSent missing
          have buffered : history.shared.recvBuf ≠ [] :=
            fun empty => missing (returned.mpr empty)
          exact absurd (admits aborted buffered) notSent
  | _ => exact Iff.rfl

end StreamHistory

open StreamHistory in
/-- The bytes returned are a prefix of the bytes delivered, and the reads of a
run are all faithful exactly when all of them are admitted. -/
theorem stream_reads_faithful_exactly (labels : List StreamLabel) :
    (after labels).returned <+: (after labels).delivered ∧
      ((∀ done next rest, labels = done ++ next :: rest →
          (after done).ReadsFaithfully next) ↔
        ∀ done next rest, labels = done ++ next :: rest →
          (after done).AdmitsRead next) := by
  constructor
  · exact ⟨_, (after_accounted labels).buffered⟩
  · apply forall_congr'
    intro done
    apply forall_congr'
    intro next
    apply forall_congr'
    intro rest
    apply imp_congr_right
    intro _
    exact (after_accounted done).faithful_iff next

open StreamHistory in
/-- One delivered byte was read and the connection ended without a FIN: the
next read is a clean end.  One delivered byte was not yet read and the peer
aborted receiving: the next read fails. -/
theorem lost_connection_read_as_end :
    ¬(after
        [.event (.receive [some [7]]), .pollRead 0 1,
          .event .shutdownComplete]).ReadsFaithfully (.pollRead 0 1) ∧
      ¬(after
          [.event (.receive [some [7]]),
            .event .peerReceiveAborted]).ReadsFaithfully
        (.pollRead 0 1) := by
  constructor
  · intro faithful
    have ended := (faithful Nat.one_pos).1 _ rfl
    exact absurd ended.1 (by decide)
  · intro faithful
    obtain ⟨bytes, next, _, isRead⟩ :=
      (faithful Nat.one_pos).2 (by decide) (by decide) (by decide)
    cases isRead

end Quiczilla
