import Quiczilla.ControlStream

/-!
# Framing of control messages

The coordination loop keeps the frames of the control stream apart exactly as
long as no command wins `select!` while the reader's future holds part of a
frame.  One direction is a byte count: every obtained message accounts for its
own frame, so a run that dropped bytes cannot have obtained all messages.  The
other direction follows the stream: between two frames the bytes that are
held, buffered and still to come are the frames of the remaining messages.
-/

namespace Quiczilla

open Foundation

/-- Everything the remote peer writes for a list of messages. -/
def wire (loop : PeerLoop) (messages : List String) : List UInt8 :=
  messages.flatMap loop.writer

def SelectEvent.arrived : SelectEvent → List UInt8
  | .arrive chunk => chunk
  | _ => []

/-- The bytes that arrive during a schedule, in order. -/
def arrivals (events : List SelectEvent) : List UInt8 :=
  events.flatMap SelectEvent.arrived

/-- The reader has nothing left to do: it waits on an empty buffer, or its
own outcome ended the loop. -/
def SelectState.Settled (state : SelectState) : Prop :=
  (state.ended = none ∧ state.buffer = []) ∨
    ∃ outcome, state.ended = some (.reader outcome)

/-- A command is taken only while the reader holds no part of a frame. -/
def BetweenFrames (state : SelectState) (event : SelectEvent) : Prop :=
  ∀ command, event = .command command → state.future = .fresh

/-! ## The writer and the two loops -/

theorem loop_reader_eq (loop : PeerLoop) :
    loop.reader = readControlMessage := by
  cases loop <;> rfl

theorem loop_writer_eq (loop : PeerLoop) :
    loop.writer = sendControlMessage := by
  cases loop <;> rfl

@[simp]
theorem wire_nil (loop : PeerLoop) : wire loop [] = [] :=
  rfl

theorem wire_cons (loop : PeerLoop) (message : String)
    (rest : List String) :
    wire loop (message :: rest) =
      toBigEndian 4 message.utf8ByteSize ++
        (message.toByteArray.data.toList ++ wire loop rest) := by
  rw [wire, List.flatMap_cons, loop_writer_eq, sendControlMessage,
    List.append_assoc]
  simp only [wire, loop_writer_eq]

/-- The frame bytes that a list of messages accounts for. -/
def frameWeight (messages : List String) : Nat :=
  (messages.map fun message => 4 + message.utf8ByteSize).sum

theorem length_wire (loop : PeerLoop) (messages : List String) :
    (wire loop messages).length = frameWeight messages := by
  induction messages with
  | nil =>
      rfl
  | cons message rest inductionHypothesis =>
      have bodyLength :
          message.toByteArray.data.toList.length =
            message.utf8ByteSize := rfl
      rw [wire_cons, List.length_append, List.length_append,
        length_toBigEndian, inductionHypothesis, bodyLength]
      simp only [frameWeight, List.map_cons, List.sum_cons]
      omega

theorem frameWeight_append_singleton
    (messages : List String) (message : String) :
    frameWeight (messages ++ [message]) =
      frameWeight messages + (4 + message.utf8ByteSize) := by
  simp [frameWeight]

theorem arrivals_cons (event : SelectEvent) (rest : List SelectEvent) :
    arrivals (event :: rest) = event.arrived ++ arrivals rest :=
  rfl

/-! ## Filling a buffer -/

theorem fill_append_leave (need : Nat) (taken buffer : List UInt8) :
    fillBuffer need taken buffer ++ leaveBuffer need taken buffer =
      taken ++ buffer := by
  rw [fillBuffer, leaveBuffer, List.append_assoc, List.take_append_drop]

theorem length_fill_add_leave (need : Nat) (taken buffer : List UInt8) :
    (fillBuffer need taken buffer).length +
        (leaveBuffer need taken buffer).length =
      taken.length + buffer.length := by
  rw [← List.length_append, fill_append_leave, List.length_append]

theorem length_fill_le
    {need : Nat} {taken : List UInt8} (bounded : taken.length ≤ need)
    (buffer : List UInt8) :
    (fillBuffer need taken buffer).length ≤ need := by
  rw [fillBuffer, List.length_append, List.length_take]
  omega

/-- A buffer that stays short has drained the stream. -/
theorem leave_eq_nil_of_short
    {need : Nat} {taken buffer : List UInt8}
    (short : (fillBuffer need taken buffer).length < need) :
    leaveBuffer need taken buffer = [] := by
  rw [fillBuffer, List.length_append, List.length_take] at short
  rw [leaveBuffer, List.drop_eq_nil_iff]
  omega

theorem decodeBody_size
    {bytes : List UInt8} {text : String}
    (decoded : decodeBody bytes = .message text) :
    text.utf8ByteSize = bytes.length := by
  unfold decodeBody String.fromUTF8? at decoded
  split at decoded
  · rename_i text' valid
    split at valid
    · cases decoded
      cases valid
      rfl
    · cases valid
  · cases decoded

theorem decodeBody_toByteArray (message : String) :
    decodeBody message.toByteArray.data.toList = .message message := by
  have valid :
      String.fromUTF8? message.toByteArray = some message := by
    rw [String.fromUTF8?, dif_pos message.isValidUTF8]
    rfl
  simp only [decodeBody, Array.toArray_toList, valid]

/-! ## Counting bytes -/

/-- The bytes a suspended future has taken out of the stream. -/
def ReadFuture.held : ReadFuture → Nat
  | .header taken => taken.length
  | .body _ taken => 4 + taken.length

@[simp]
theorem held_fresh : ReadFuture.fresh.held = 0 :=
  rfl

/-- The bytes that the loop still accounts for. -/
def SelectState.accounted (state : SelectState) : Nat :=
  frameWeight state.obtained + state.future.held + state.buffer.length

/-- An upper bound for what a poll keeps of the bytes it saw. -/
def ReadPoll.kept : ReadPoll → Nat
  | .pending future rest => future.held + rest.length
  | .finished (.message text) rest => 4 + text.utf8ByteSize + rest.length
  | .finished _ rest => rest.length

theorem pollBody_kept
    (length : Nat) (taken buffer : List UInt8) (closed : Bool) :
    (pollBody length taken buffer closed).kept ≤
      4 + taken.length + buffer.length := by
  have conserved := length_fill_add_leave length taken buffer
  unfold pollBody
  split
  · split <;> simp only [ReadPoll.kept, ReadFuture.held] <;> omega
  · cases decoded : decodeBody (fillBuffer length taken buffer) with
    | message text =>
        have size := decodeBody_size decoded
        simp only [ReadPoll.kept]
        omega
    | _ =>
        simp only [ReadPoll.kept]
        omega

theorem pollHeader_kept
    (taken buffer : List UInt8) (closed : Bool) :
    (pollHeader taken buffer closed).kept ≤
      taken.length + buffer.length := by
  have conserved := length_fill_add_leave 4 taken buffer
  unfold pollHeader
  split
  · split <;> simp only [ReadPoll.kept, ReadFuture.held] <;> omega
  · split
    · simp only [ReadPoll.kept]
      omega
    · split
      · simp only [ReadPoll.kept, String.utf8ByteSize_empty]
        omega
      · have bodyKept :=
          pollBody_kept (ofBigEndian (fillBuffer 4 taken buffer)) []
            (leaveBuffer 4 taken buffer) closed
        simp only [List.length_nil] at bodyKept
        omega

/-- A poll never keeps more than the future held and the stream offered. -/
theorem readControlMessage_kept
    (future : ReadFuture) (buffer : List UInt8) (closed : Bool) :
    (readControlMessage future buffer closed).kept ≤
      future.held + buffer.length := by
  cases future with
  | header taken =>
      exact pollHeader_kept taken buffer closed
  | body length taken =>
      exact pollBody_kept length taken buffer closed

theorem obtain_accounted
    (state : SelectState) (outcome : ReadOutcome) (rest : List UInt8) :
    (state.obtain outcome rest).accounted =
      frameWeight state.obtained +
        (ReadPoll.finished outcome rest).kept := by
  cases outcome with
  | message text =>
      simp only [SelectState.obtain, SelectState.accounted,
        frameWeight_append_singleton, held_fresh, ReadPoll.kept]
      omega
  | _ =>
      simp only [SelectState.obtain, SelectState.accounted,
        held_fresh, ReadPoll.kept, Nat.add_zero]

/-- One step accounts for no more than before plus what arrives. -/
theorem selectStep_accounted
    {loop : PeerLoop} {state next : SelectState} {event : SelectEvent}
    (stepped : selectStep loop state event = some next) :
    next.accounted ≤ state.accounted + event.arrived.length := by
  cases event with
  | arrive chunk =>
      simp only [selectStep] at stepped
      split at stepped
      · cases stepped
      · cases stepped
        simp only [SelectState.accounted, SelectEvent.arrived,
          List.length_append]
        omega
  | finish =>
      simp only [selectStep] at stepped
      split at stepped
      · cases stepped
      · cases stepped
        exact Nat.le_add_right _ _
  | poll =>
      simp only [selectStep, loop_reader_eq] at stepped
      have kept :=
        readControlMessage_kept state.future state.buffer state.closed
      split at stepped
      · cases stepped
      · split at stepped
        · rename_i polled
          rw [polled, ReadPoll.kept] at kept
          cases stepped
          simp only [SelectState.accounted]
          omega
        · rename_i polled
          rw [polled] at kept
          cases stepped
          rw [obtain_accounted]
          simp only [SelectState.accounted]
          omega
  | command command =>
      simp only [selectStep] at stepped
      split at stepped
      · cases stepped
      · split at stepped <;> cases stepped <;>
          simp only [SelectState.accounted, held_fresh] <;>
          omega
  | cancelled =>
      simp only [selectStep] at stepped
      split at stepped
      · cases stepped
      · cases stepped
        simp only [SelectState.accounted, held_fresh]
        omega

theorem held_eq_zero_iff (future : ReadFuture) :
    future.held = 0 ↔ future = .fresh := by
  cases future with
  | header taken =>
      simp [ReadFuture.held, ReadFuture.fresh]
  | body length taken =>
      simp [ReadFuture.held, ReadFuture.fresh]

/-- A command that wins in the middle of a frame loses bytes. -/
theorem selectStep_cut_accounted
    {loop : PeerLoop} {state next : SelectState} {event : SelectEvent}
    (stepped : selectStep loop state event = some next)
    (cut : ¬ BetweenFrames state event) :
    next.accounted < state.accounted + event.arrived.length := by
  simp only [BetweenFrames, not_forall] at cut
  obtain ⟨command, rfl, partial_⟩ := cut
  have holding : 0 < state.future.held := by
    rw [Nat.pos_iff_ne_zero, ne_eq, held_eq_zero_iff]
    exact partial_
  simp only [selectStep] at stepped
  split at stepped
  · cases stepped
  · split at stepped <;> cases stepped <;>
      simp only [SelectState.accounted, held_fresh] <;>
      omega

/-- Along every schedule the loop accounts for at most what arrived, and for
strictly less once a command has cut a frame. -/
theorem replay_accounted
    {loop : PeerLoop} {state final : SelectState}
    {events : List SelectEvent}
    (ran : replay (selectStep loop) state events = some final) :
    final.accounted ≤ state.accounted + (arrivals events).length ∧
      (Run (selectStep loop) BetweenFrames state events final ∨
        final.accounted <
          state.accounted + (arrivals events).length) := by
  induction events generalizing state with
  | nil =>
      cases ran
      exact ⟨Nat.le_add_right _ _, Or.inl (Run.refl _)⟩
  | cons event rest inductionHypothesis =>
      obtain ⟨next, stepped, restRan⟩ := replay_cons_eq_some.mp ran
      obtain ⟨restBound, restCase⟩ := inductionHypothesis restRan
      have stepBound := selectStep_accounted stepped
      rw [arrivals_cons, List.length_append]
      refine ⟨by omega, ?_⟩
      by_cases between : BetweenFrames state event
      · rcases restCase with restRun | restCut
        · exact Or.inl (Run.cons between stepped restRun)
        · exact Or.inr (by omega)
      · have stepCut := selectStep_cut_accounted stepped between
        exact Or.inr (by omega)

/-! ## Accepted lengths -/

/-- Everything read so far respects the length limit. -/
structure SelectState.WithinLimit (state : SelectState) : Prop where
  obtained :
    ∀ message, message ∈ state.obtained →
      message.utf8ByteSize ≤ maxControlMessageBytes
  future :
    ∀ length taken, state.future = .body length taken →
      length ≤ maxControlMessageBytes ∧ taken.length ≤ length

/-- What a poll may leave under the length limit. -/
def ReadPoll.WithinLimit : ReadPoll → Prop
  | .pending (.header _) _ => True
  | .pending (.body length taken) _ =>
      length ≤ maxControlMessageBytes ∧ taken.length ≤ length
  | .finished (.message text) _ =>
      text.utf8ByteSize ≤ maxControlMessageBytes
  | .finished _ _ => True

theorem pollBody_withinLimit
    {length : Nat} {taken : List UInt8}
    (limited : length ≤ maxControlMessageBytes)
    (bounded : taken.length ≤ length)
    (buffer : List UInt8) (closed : Bool) :
    (pollBody length taken buffer closed).WithinLimit := by
  have filled := length_fill_le bounded buffer
  unfold pollBody
  split
  · split
    · trivial
    · exact ⟨limited, filled⟩
  · cases decoded : decodeBody (fillBuffer length taken buffer) with
    | message text =>
        have size := decodeBody_size decoded
        simp only [ReadPoll.WithinLimit]
        omega
    | _ =>
        trivial

theorem pollHeader_withinLimit
    (taken buffer : List UInt8) (closed : Bool) :
    (pollHeader taken buffer closed).WithinLimit := by
  unfold pollHeader
  split
  · split <;> trivial
  · split
    · trivial
    · rename_i notExceeded
      split
      · exact Nat.zero_le _
      · exact
          pollBody_withinLimit (Nat.le_of_not_lt notExceeded)
            (Nat.zero_le _) _ _

theorem readControlMessage_withinLimit
    {state : SelectState} (limited : state.WithinLimit) :
    (readControlMessage state.future state.buffer
      state.closed).WithinLimit := by
  cases reading : state.future with
  | header taken =>
      exact pollHeader_withinLimit taken state.buffer state.closed
  | body length taken =>
      have bounds := limited.future length taken reading
      exact pollBody_withinLimit bounds.1 bounds.2 state.buffer state.closed

theorem withinLimit_of_fresh
    {state : SelectState} (idle : state.future = .fresh)
    (obtained :
      ∀ message, message ∈ state.obtained →
        message.utf8ByteSize ≤ maxControlMessageBytes) :
    state.WithinLimit where
  obtained := obtained
  future := by
    intro length taken reading
    rw [idle] at reading
    cases reading

theorem obtain_withinLimit
    {state : SelectState} (limited : state.WithinLimit)
    {outcome : ReadOutcome} {rest : List UInt8}
    (polled : (ReadPoll.finished outcome rest).WithinLimit) :
    (state.obtain outcome rest).WithinLimit := by
  cases outcome with
  | message text =>
      refine withinLimit_of_fresh rfl ?_
      intro message member
      rcases List.mem_append.mp member with earlier | last
      · exact limited.obtained message earlier
      · rw [List.mem_singleton.mp last]
        exact polled
  | _ =>
      exact withinLimit_of_fresh rfl limited.obtained

theorem selectStep_withinLimit
    {loop : PeerLoop} {state next : SelectState} {event : SelectEvent}
    (limited : state.WithinLimit)
    (stepped : selectStep loop state event = some next) :
    next.WithinLimit := by
  cases event with
  | arrive chunk =>
      simp only [selectStep] at stepped
      split at stepped <;> cases stepped
      exact ⟨limited.obtained, limited.future⟩
  | finish =>
      simp only [selectStep] at stepped
      split at stepped <;> cases stepped
      exact ⟨limited.obtained, limited.future⟩
  | poll =>
      simp only [selectStep, loop_reader_eq] at stepped
      have polledLimit := readControlMessage_withinLimit limited
      split at stepped
      · cases stepped
      · split at stepped
        · rename_i future rest polled
          rw [polled] at polledLimit
          cases stepped
          refine ⟨limited.obtained, ?_⟩
          rintro length taken rfl
          exact polledLimit
        · rename_i polled
          rw [polled] at polledLimit
          cases stepped
          exact obtain_withinLimit limited polledLimit
  | command command =>
      simp only [selectStep] at stepped
      split at stepped
      · cases stepped
      · split at stepped <;> cases stepped <;>
          exact withinLimit_of_fresh rfl limited.obtained
  | cancelled =>
      simp only [selectStep] at stepped
      split at stepped
      · cases stepped
      · cases stepped
        exact withinLimit_of_fresh rfl limited.obtained

theorem initial_withinLimit : SelectState.initial.WithinLimit :=
  withinLimit_of_fresh rfl (by
    intro message member
    cases member)

/-- Whatever the schedule, no obtained message exceeds the limit. -/
theorem obtained_within_limit
    {loop : PeerLoop} {final : SelectState} {events : List SelectEvent}
    (ran :
      replay (selectStep loop) .initial events = some final) :
    ∀ message, message ∈ final.obtained →
      message.utf8ByteSize ≤ maxControlMessageBytes := by
  have kept : final.WithinLimit :=
    (run_of_replay ran).preserves SelectState.WithinLimit
      (fun _ _ _ limited _ stepped =>
        selectStep_withinLimit limited stepped)
      initial_withinLimit
  exact kept.obtained

/-! ## Alignment with the frames of the remaining messages -/

/-- The bytes that a future has taken, the stream buffers and the network
still carries spell the frames of the messages in `rest`. -/
def ReadFuture.Expects
    (loop : PeerLoop) (buffer toCome : List UInt8) (rest : List String) :
    ReadFuture → Prop
  | .header taken =>
      taken.length < 4 ∧ taken ++ buffer ++ toCome = wire loop rest
  | .body length taken =>
      ∃ message more,
        rest = message :: more ∧
        length = message.utf8ByteSize ∧
        taken.length < length ∧
        taken ++ buffer ++ toCome =
          message.toByteArray.data.toList ++ wire loop more

/-- The same for the result of a poll. -/
def ReadPoll.Expects
    (loop : PeerLoop) (toCome : List UInt8) (rest : List String) :
    ReadPoll → Prop
  | .pending future buffer => future.Expects loop buffer toCome rest
  | .finished (.message text) buffer =>
      ∃ more, rest = text :: more ∧
        ReadFuture.fresh.Expects loop buffer toCome more
  | .finished _ _ => rest = []

/-- A buffer that fills up holds exactly the next field of the stream. -/
theorem fill_eq_field
    {need : Nat} {taken buffer toCome field following : List UInt8}
    (bounded : taken.length ≤ need) (width : field.length = need)
    (spelled : taken ++ buffer ++ toCome = field ++ following)
    (full : ¬ (fillBuffer need taken buffer).length < need) :
    fillBuffer need taken buffer = field ∧
      leaveBuffer need taken buffer ++ toCome = following := by
  have filled := length_fill_le bounded buffer
  have sameLength :
      (fillBuffer need taken buffer).length = field.length := by
    omega
  apply List.append_inj _ sameLength
  rw [← List.append_assoc, fill_append_leave, spelled]

theorem pollBody_expects
    {loop : PeerLoop} {length : Nat} {taken buffer toCome : List UInt8}
    {closed : Bool} {message : String} {more : List String}
    (width : length = message.utf8ByteSize)
    (short : taken.length ≤ length)
    (spelled :
      taken ++ buffer ++ toCome =
        message.toByteArray.data.toList ++ wire loop more)
    (complete : closed = true → toCome = []) :
    (pollBody length taken buffer closed).Expects loop toCome
      (message :: more) := by
  have bodyLength :
      message.toByteArray.data.toList.length = length := width.symm
  unfold pollBody
  split
  · rename_i unfinished
    have drained := leave_eq_nil_of_short unfinished
    have conserved := fill_append_leave length taken buffer
    rw [drained, List.append_nil] at conserved
    split
    · rename_i finished
      -- At the end of the stream the whole body has been buffered.
      have total := congrArg List.length spelled
      rw [complete finished, ← conserved, List.append_nil,
        List.length_append, bodyLength] at total
      omega
    · refine ⟨message, more, rfl, width, unfinished, ?_⟩
      rw [drained, conserved, List.append_nil]
      exact spelled
  · rename_i full
    obtain ⟨bodyEq, followingEq⟩ :=
      fill_eq_field short bodyLength spelled full
    rw [bodyEq, decodeBody_toByteArray]
    exact ⟨more, rfl, Nat.zero_lt_succ 3, followingEq⟩

theorem pollHeader_expects
    {loop : PeerLoop} {taken buffer toCome : List UInt8}
    {closed : Bool} {rest : List String}
    (limited :
      ∀ message, message ∈ rest →
        message.utf8ByteSize ≤ maxControlMessageBytes)
    (short : taken.length < 4)
    (spelled : taken ++ buffer ++ toCome = wire loop rest)
    (complete : closed = true → toCome = []) :
    (pollHeader taken buffer closed).Expects loop toCome rest := by
  have conserved := fill_append_leave 4 taken buffer
  unfold pollHeader
  split
  · rename_i unfinished
    have drained := leave_eq_nil_of_short unfinished
    rw [drained, List.append_nil] at conserved
    split
    · rename_i finished
      -- Fewer than four bytes are left, so no frame is.
      cases rest with
      | nil =>
          rfl
      | cons message more =>
          have total := congrArg List.length spelled
          rw [complete finished, ← conserved, List.append_nil,
            length_wire, frameWeight, List.map_cons,
            List.sum_cons] at total
          omega
    · refine ⟨unfinished, ?_⟩
      rw [drained, conserved, List.append_nil]
      exact spelled
  · rename_i full
    cases rest with
    | nil =>
        have total := congrArg List.length spelled
        have filled := length_fill_add_leave 4 taken buffer
        simp only [wire_nil, List.length_append, List.length_nil] at total
        omega
    | cons message more =>
        rw [wire_cons] at spelled
        obtain ⟨headerEq, followingEq⟩ :=
          fill_eq_field (Nat.le_of_lt short)
            (length_toBigEndian 4 _) spelled full
        have size :=
          limited message (List.mem_cons_self)
        have decoded :
            ofBigEndian (fillBuffer 4 taken buffer) =
              message.utf8ByteSize := by
          rw [headerEq]
          apply ofBigEndian_toBigEndian_of_lt
          exact Nat.lt_of_le_of_lt size (by decide)
        rw [decoded, if_neg (Nat.not_lt.mpr size)]
        split
        · rename_i empty
          have messageEmpty : message = "" :=
            String.utf8ByteSize_eq_zero_iff.mp empty
          subst messageEmpty
          exact ⟨more, rfl, Nat.zero_lt_succ 3, followingEq⟩
        · exact
            pollBody_expects rfl (Nat.zero_le _) followingEq complete

/-- A poll of an aligned reader obtains the next message, waits for more of
it, or has seen the last one. -/
theorem readControlMessage_expects
    {loop : PeerLoop} {future : ReadFuture}
    {buffer toCome : List UInt8} (closed : Bool) {rest : List String}
    (limited :
      ∀ message, message ∈ rest →
        message.utf8ByteSize ≤ maxControlMessageBytes)
    (expects : future.Expects loop buffer toCome rest)
    (complete : closed = true → toCome = []) :
    (readControlMessage future buffer closed).Expects loop toCome
      rest := by
  cases future with
  | header taken =>
      exact pollHeader_expects limited expects.1 expects.2 complete
  | body length taken =>
      obtain ⟨message, more, rfl, width, short, spelled⟩ := expects
      exact
        pollBody_expects width (Nat.le_of_lt short) spelled complete

/-- The loop has obtained an initial run of the messages and is aligned with
the frames of the others. -/
structure SelectState.Aligned
    (loop : PeerLoop) (messages : List String) (toCome : List UInt8)
    (state : SelectState) : Prop where
  complete : state.closed = true → toCome = []
  split :
    ∃ rest, messages = state.obtained ++ rest ∧
      (∀ outcome, state.ended = some (.reader outcome) → rest = []) ∧
      (state.ended = none →
        state.future.Expects loop state.buffer toCome rest)

/-- A step that cuts no frame keeps the loop aligned. -/
theorem selectStep_aligned
    {loop : PeerLoop} {messages : List String} {toCome : List UInt8}
    {state next : SelectState} {event : SelectEvent}
    (limited :
      ∀ message, message ∈ messages →
        message.utf8ByteSize ≤ maxControlMessageBytes)
    (aligned :
      state.Aligned loop messages (event.arrived ++ toCome))
    (last : event = .finish → toCome = [])
    (between : BetweenFrames state event)
    (stepped : selectStep loop state event = some next) :
    next.Aligned loop messages toCome := by
  obtain ⟨complete, rest, split, readerEnd, expects⟩ := aligned
  cases event with
  | arrive chunk =>
      simp only [selectStep] at stepped
      split at stepped
      · cases stepped
      · rename_i stillOpen
        cases stepped
        refine ⟨fun closed => absurd closed stillOpen,
          rest, split, readerEnd, ?_⟩
        intro notEnded
        have spelled := expects notEnded
        cases reading : state.future with
        | header taken =>
            rw [reading] at spelled
            refine ⟨spelled.1, ?_⟩
            rw [← spelled.2]
            simp [SelectEvent.arrived]
        | body length taken =>
            rw [reading] at spelled
            obtain ⟨message, more, shape, width, short, bytes⟩ := spelled
            refine ⟨message, more, shape, width, short, ?_⟩
            rw [← bytes]
            simp [SelectEvent.arrived]
  | finish =>
      simp only [selectStep] at stepped
      split at stepped
      · cases stepped
      · cases stepped
        exact ⟨fun _ => last rfl, rest, split, readerEnd, expects⟩
  | poll =>
      simp only [selectStep, loop_reader_eq] at stepped
      split at stepped
      · cases stepped
      · rename_i running
        have notEnded : state.ended = none := by
          simpa using running
        have restLimited :
            ∀ message, message ∈ rest →
              message.utf8ByteSize ≤ maxControlMessageBytes := by
          intro message member
          apply limited
          rw [split]
          exact List.mem_append.mpr (Or.inr member)
        have polledExpects :=
          readControlMessage_expects state.closed
            restLimited (expects notEnded) complete
        split at stepped
        · rename_i polled
          rw [polled] at polledExpects
          cases stepped
          exact ⟨complete, rest, split, readerEnd,
            fun _ => polledExpects⟩
        · rename_i outcome remaining polled
          rw [polled] at polledExpects
          cases stepped
          cases outcome with
          | message text =>
              obtain ⟨more, shape, moreExpects⟩ := polledExpects
              refine ⟨complete, more, ?_, ?_, fun _ => moreExpects⟩
              · rw [split, shape, SelectState.obtain]
                simp
              · intro ending ended
                rw [SelectState.obtain, notEnded] at ended
                cases ended
          | _ =>
              have noneLeft : rest = [] := polledExpects
              subst noneLeft
              exact ⟨complete, [], split, fun _ _ => rfl, nofun⟩
  | command command =>
      have idle := between command rfl
      simp only [selectStep] at stepped
      split at stepped
      · cases stepped
      · rename_i running
        have notEnded : state.ended = none := by
          simpa using running
        have idleExpects := expects notEnded
        rw [idle] at idleExpects
        split at stepped <;> cases stepped
        · exact ⟨complete, rest, split, readerEnd, fun _ => idleExpects⟩
        · exact ⟨complete, rest, split, nofun, nofun⟩
  | cancelled =>
      simp only [selectStep] at stepped
      split at stepped
      · cases stepped
      · cases stepped
        exact ⟨complete, rest, split, nofun, nofun⟩

/-- After the end of the stream nothing arrives. -/
theorem arrivals_eq_nil_of_closed
    {loop : PeerLoop} {state final : SelectState}
    {events : List SelectEvent}
    (closed : state.closed = true)
    (ran : replay (selectStep loop) state events = some final) :
    arrivals events = [] := by
  induction events generalizing state with
  | nil =>
      rfl
  | cons event rest inductionHypothesis =>
      obtain ⟨next, stepped, restRan⟩ := replay_cons_eq_some.mp ran
      rw [arrivals_cons]
      cases event with
      | arrive chunk =>
          simp [selectStep, closed] at stepped
      | finish =>
          simp [selectStep, closed] at stepped
      | poll =>
          simp only [selectStep] at stepped
          have stillClosed : next.closed = true := by
            split at stepped
            · cases stepped
            · split at stepped
              · cases stepped
                exact closed
              · rename_i outcome _ _
                cases stepped
                cases outcome <;> exact closed
          exact inductionHypothesis stillClosed restRan
      | command command =>
          simp only [selectStep] at stepped
          have stillClosed : next.closed = true := by
            split at stepped
            · cases stepped
            · split at stepped <;> cases stepped <;> exact closed
          exact inductionHypothesis stillClosed restRan
      | cancelled =>
          simp only [selectStep] at stepped
          have stillClosed : next.closed = true := by
            split at stepped <;> cases stepped
            exact closed
          exact inductionHypothesis stillClosed restRan

/-- Alignment carries over a whole run that cuts no frame. -/
theorem run_aligned
    {loop : PeerLoop} {messages : List String}
    {state final : SelectState} {events : List SelectEvent}
    (limited :
      ∀ message, message ∈ messages →
        message.utf8ByteSize ≤ maxControlMessageBytes)
    (run :
      Run (selectStep loop) BetweenFrames state events final)
    (aligned : state.Aligned loop messages (arrivals events)) :
    final.Aligned loop messages [] := by
  induction run with
  | refl state =>
      exact aligned
  | @cons source middle target event rest between stepped restRun
      inductionHypothesis =>
      apply inductionHypothesis
      refine selectStep_aligned limited aligned ?_ between stepped
      rintro rfl
      apply arrivals_eq_nil_of_closed _ restRun.replay_eq
      simp only [selectStep] at stepped
      split at stepped <;> cases stepped
      rfl

theorem initial_aligned (loop : PeerLoop) (messages : List String) :
    SelectState.initial.Aligned loop messages (wire loop messages) where
  complete := nofun
  split := ⟨messages, rfl, nofun, fun _ => ⟨Nat.zero_lt_succ 3, rfl⟩⟩

/-- An aligned loop whose reader has nothing left to do has obtained every
message. -/
theorem obtained_of_settled
    {loop : PeerLoop} {messages : List String} {state : SelectState}
    (aligned : state.Aligned loop messages [])
    (settled : state.Settled) :
    state.obtained = messages := by
  obtain ⟨_, rest, split, readerEnd, expects⟩ := aligned
  have noneLeft : rest = [] := by
    rcases settled with ⟨notEnded, drained⟩ | ⟨outcome, ended⟩
    · have waiting := expects notEnded
      cases reading : state.future with
      | header taken =>
          rw [reading, drained] at waiting
          obtain ⟨short, spelled⟩ := waiting
          cases rest with
          | nil =>
              rfl
          | cons message more =>
              have total := congrArg List.length spelled
              simp only [List.append_nil, length_wire, frameWeight,
                List.map_cons, List.sum_cons] at total
              omega
      | body length taken =>
          rw [reading, drained] at waiting
          obtain ⟨message, more, _, width, short, spelled⟩ := waiting
          have total := congrArg List.length spelled
          have bodyLength :
              message.toByteArray.data.toList.length =
                message.utf8ByteSize := rfl
          simp only [List.append_nil, List.length_append,
            bodyLength] at total
          omega
    · exact readerEnd outcome ended
  rw [split, noneLeft, List.append_nil]

/-- The loop obtains exactly the messages that were written, if and only if
none of them exceeds the length limit and no command wins `select!` while the
reader holds part of a frame. -/
theorem framing_intact_iff
    (loop : PeerLoop) (messages : List String)
    (events : List SelectEvent) (final : SelectState)
    (delivered : arrivals events = wire loop messages)
    (ran : replay (selectStep loop) .initial events = some final)
    (settled : final.Settled) :
    final.obtained = messages ↔
      (∀ message, message ∈ messages →
          message.utf8ByteSize ≤ maxControlMessageBytes) ∧
        Run (selectStep loop) BetweenFrames .initial events final := by
  constructor
  · intro intact
    refine ⟨?_, ?_⟩
    · rw [← intact]
      exact obtained_within_limit ran
    · rcases (replay_accounted ran).2 with run | lost
      · exact run
      · -- The obtained frames alone account for every byte that arrived.
        have initially : SelectState.initial.accounted = 0 := rfl
        rw [delivered, length_wire, ← intact, initially, Nat.zero_add,
          SelectState.accounted] at lost
        omega
  · rintro ⟨limited, run⟩
    have aligned := initial_aligned loop messages
    rw [← delivered] at aligned
    exact obtained_of_settled (run_aligned limited run aligned) settled

/-- A peer pauses; its frame arrives as the two writes of
`send_control_message`, and a local command wins `select!` in between. -/
def pauseCutSchedule : List SelectEvent :=
  [.arrive (toBigEndian 4 5), .poll, .command (some .resume),
    .arrive "PAUSE".toByteArray.data.toList, .poll]

/-- The reader then takes `PAUS` for a length and ends the loop: framing does
not survive a local command. -/
theorem framing_lost_on_command :
    ¬ ∀ (loop : PeerLoop) (messages : List String)
        (events : List SelectEvent) (final : SelectState),
        arrivals events = wire loop messages →
          replay (selectStep loop) .initial events = some final →
            final.Settled →
              final.obtained = messages := by
  intro intact
  have lost :=
    intact .runPeer ["PAUSE"] pauseCutSchedule
      { buffer := [69]
        closed := false
        future := .fresh
        obtained := []
        ended := some (.reader (.lengthExceeded 1346458963)) }
      (by decide) (by decide) (Or.inr ⟨_, rfl⟩)
  cases lost

/-- The same two arrivals without the command give the message. -/
theorem framing_intact_pause :
    ({ buffer := []
       closed := false
       future := .fresh
       obtained := ["PAUSE"]
       ended := none } : SelectState).obtained = ["PAUSE"] ↔
      (∀ message, message ∈ ["PAUSE"] →
          message.utf8ByteSize ≤ maxControlMessageBytes) ∧
        Run (selectStep .runPeerGeneric) BetweenFrames .initial
          [.arrive (toBigEndian 4 5), .poll,
            .arrive "PAUSE".toByteArray.data.toList, .poll]
          { buffer := []
            closed := false
            future := .fresh
            obtained := ["PAUSE"]
            ended := none } :=
  framing_intact_iff .runPeerGeneric ["PAUSE"] _ _
    (by decide) (by decide) (Or.inl ⟨rfl, rfl⟩)

end Quiczilla
