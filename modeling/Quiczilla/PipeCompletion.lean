import Quiczilla.Pipe

/-!
# When a pipe is reported as complete

A copy loop is left at the end of its input or after a failed call, and the
code behind the loop is the same for both.  The reports of a run are therefore
right exactly when none of its calls failed, the receive stream was read at
all, and the writer kept nothing back when it was dropped.
-/

namespace Quiczilla

open Foundation

/-- No read and no write failed in this call. -/
def PipeLabel.Succeeds : PipeLabel → Prop
  | .sendRead outcome | .recvRead outcome => outcome ≠ .failed
  | .sendWrite outcome | .recvWrite outcome _ => outcome = .all
  | .sendShutdown _ | .recvFlush _ => True

instance (label : PipeLabel) : Decidable label.Succeeds := by
  cases label <;> unfold PipeLabel.Succeeds <;> infer_instance

/-- The orderly FIN was sent only after the end of the input. -/
def PipeState.FinAfterEnd (state : PipeState) : Prop :=
  state.sender.finSent = true → state.sender.loop.attached = true →
    state.sender.loop.atEnd = true

instance (state : PipeState) : Decidable state.FinAfterEnd := by
  unfold PipeState.FinAfterEnd
  infer_instance

/-- What `Ok` with this result has to mean. -/
structure PipeState.Complete
    (state : PipeState) (result : PipeResult) : Prop where
  inputRead :
    state.sender.loop.attached = true → state.sender.loop.atEnd = true
  inputAccepted :
    state.sender.loop.accepted = state.sender.loop.consumed
  streamRead : state.receiver.loop.atEnd = true
  outputWritten : state.receiver.written = state.receiver.loop.consumed
  finAfterEnd : state.FinAfterEnd
  bytesSent : result.bytesSent = state.sender.loop.accepted.length
  bytesReceived :
    result.bytesReceived = state.receiver.loop.accepted.length
  sentHash :
    ∀ hash, result.sentHash = some hash →
      hash = sha256Hex state.sender.loop.accepted
  receivedHash :
    ∀ hash, result.receivedHash = some hash →
      hash = sha256Hex state.receiver.loop.accepted

namespace CopyLoop

/-- The loop was not left by a failure. -/
def Intact (loop : CopyLoop) : Prop :=
  loop.phase = .left → loop.attached = true → loop.atEnd = true

/-- What the loop holds back: the chunk between its read and its write. -/
def pending (loop : CopyLoop) : List UInt8 :=
  match loop.phase with
  | .writing chunk => chunk
  | _ => []

/-- The hasher was fed what was read, and as long as no call failed the count
and the accepted bytes are what was read, less the pending chunk. -/
structure Accounted (loop : CopyLoop) : Prop where
  hashed : ∀ fed, loop.hasher = some fed → fed = loop.consumed
  isPrefix : loop.accepted <+: loop.consumed
  copied :
    loop.Intact →
      loop.accepted ++ loop.pending = loop.consumed ∧
        loop.bytes = loop.accepted.length
  openEnded : loop.phase ≠ .left → loop.atEnd = false
  detached :
    loop.attached = false → loop.phase = .left ∧ loop.atEnd = false

theorem intact_of_phase
    {loop : CopyLoop} (inLoop : loop.phase ≠ .left) : loop.Intact :=
  fun isLeft => absurd isLeft inLoop

/-- A loop that was entered is attached and did not see the end. -/
theorem Accounted.not_intact
    {loop : CopyLoop} (accounted : loop.Accounted)
    (inLoop : loop.phase ≠ .left)
    {next : CopyLoop} (isLeft : next.phase = .left)
    (sameEnd : next.atEnd = loop.atEnd)
    (sameAttached : next.attached = loop.attached) :
    ¬next.Intact := by
  intro intact
  have isAttached : loop.attached = true := by
    by_contra notAttached
    exact inLoop (accounted.detached (by simpa using notAttached)).1
  have ended := intact isLeft (sameAttached.trans isAttached)
  rw [sameEnd, accounted.openEnded inLoop] at ended
  cases ended

theorem start_accounted (attached computeHash : Bool) :
    (start attached computeHash).Accounted where
  hashed := by
    intro fed isFed
    cases computeHash with
    | false => cases isFed
    | true =>
        cases isFed
        rfl
  isPrefix := List.prefix_rfl
  copied := by
    intro _
    refine ⟨?_, rfl⟩
    cases attached <;> rfl
  openEnded := fun _ => rfl
  detached := by
    intro notAttached
    refine ⟨?_, rfl⟩
    change (if attached then CopyPhase.reading else .left) = .left
    rw [show attached = false from notAttached]
    rfl

theorem start_intact_iff (attached computeHash : Bool) :
    (start attached computeHash).Intact := by
  cases attached with
  | false =>
      intro _ isAttached
      cases isAttached
  | true =>
      intro isLeft
      cases isLeft

theorem read_spec
    {loop next : CopyLoop} {outcome : IoRead}
    (accounted : loop.Accounted)
    (wasRead : loop.read outcome = some next) :
    next.Accounted ∧ next.attached = loop.attached ∧
      next.accepted = loop.accepted ∧
      (next.Intact ↔ loop.Intact ∧ outcome ≠ .failed) := by
  unfold read at wasRead
  split at wasRead
  · rename_i isReading
    have inLoop : loop.phase ≠ .left := by simp [isReading]
    cases wasRead
    have broken : ¬({ loop with phase := .left } : CopyLoop).Intact :=
      accounted.not_intact inLoop rfl rfl rfl
    refine ⟨?_, rfl, rfl, ?_⟩
    · exact
        { hashed := accounted.hashed
          isPrefix := accounted.isPrefix
          copied := fun intact => absurd intact broken
          openEnded := fun isOpen => absurd rfl isOpen
          detached := fun notAttached =>
            ⟨rfl, (accounted.detached notAttached).2⟩ }
    · simp [broken]
  · rename_i isReading
    have inLoop : loop.phase ≠ .left := by simp [isReading]
    obtain ⟨copied, counted⟩ :=
      accounted.copied (intact_of_phase inLoop)
    cases wasRead
    refine ⟨?_, rfl, rfl, ?_⟩
    · exact
        { hashed := accounted.hashed
          isPrefix := accounted.isPrefix
          copied := by
            intro _
            rw [pending, isReading] at copied
            exact ⟨copied, counted⟩
          openEnded := fun isOpen => absurd rfl isOpen
          detached := fun notAttached =>
            absurd (accounted.detached notAttached).1 inLoop }
    · simp [Intact, isReading]
  · rename_i chunk notEmpty isReading
    have inLoop : loop.phase ≠ .left := by simp [isReading]
    obtain ⟨copied, counted⟩ :=
      accounted.copied (intact_of_phase inLoop)
    rw [pending, isReading, List.append_nil] at copied
    split at wasRead
    · cases wasRead
      refine ⟨?_, rfl, rfl, ?_⟩
      · exact
          { hashed := by
              intro fed isFed
              obtain ⟨before, wasFed, rfl⟩ :=
                Option.map_eq_some_iff.mp isFed
              rw [accounted.hashed before wasFed]
            isPrefix :=
              accounted.isPrefix.trans (List.prefix_append _ _)
            copied := by
              intro _
              exact ⟨congrArg (· ++ chunk) copied, counted⟩
            openEnded := fun _ => accounted.openEnded inLoop
            detached := fun notAttached =>
              absurd (accounted.detached notAttached).1 inLoop }
      · simp [Intact, isReading]
    · cases wasRead
  · cases wasRead

theorem write_spec
    {loop next : CopyLoop} {outcome : IoWrite}
    (accounted : loop.Accounted)
    (wasWritten : loop.write outcome = some next) :
    next.Accounted ∧ next.attached = loop.attached ∧
      loop.accepted.length ≤ next.accepted.length ∧
      (next.Intact ↔ loop.Intact ∧ outcome = .all) := by
  unfold write at wasWritten
  split at wasWritten
  · rename_i chunk isWriting
    have inLoop : loop.phase ≠ .left := by simp [isWriting]
    obtain ⟨copied, counted⟩ :=
      accounted.copied (intact_of_phase inLoop)
    rw [pending, isWriting] at copied
    cases wasWritten
    refine ⟨?_, rfl, by simp, ?_⟩
    · exact
        { hashed := accounted.hashed
          isPrefix := copied ▸ List.prefix_rfl
          copied := by
            intro _
            refine ⟨?_, ?_⟩
            · exact (List.append_nil _).trans copied
            · change loop.bytes + chunk.length = _
              rw [counted, List.length_append]
          openEnded := fun _ => accounted.openEnded inLoop
          detached := fun notAttached =>
            absurd (accounted.detached notAttached).1 inLoop }
    · simp [Intact, isWriting]
  · rename_i chunk count isWriting
    have inLoop : loop.phase ≠ .left := by simp [isWriting]
    obtain ⟨copied, _⟩ := accounted.copied (intact_of_phase inLoop)
    rw [pending, isWriting] at copied
    cases wasWritten
    have broken :
        ¬({ loop with
            phase := .left
            accepted := loop.accepted ++ chunk.take count } :
            CopyLoop).Intact :=
      accounted.not_intact inLoop rfl rfl rfl
    refine ⟨?_, rfl, by simp, ?_⟩
    · exact
        { hashed := accounted.hashed
          isPrefix := by
            change loop.accepted ++ chunk.take count <+: loop.consumed
            rw [← copied]
            exact
              (List.prefix_append_right_inj _).mpr
                (List.take_prefix count chunk)
          copied := fun intact => absurd intact broken
          openEnded := fun isOpen => absurd rfl isOpen
          detached := fun notAttached =>
            absurd (accounted.detached notAttached).1 inLoop }
    · simp [broken]
  · cases wasWritten

end CopyLoop

namespace PipeState

def Intact (state : PipeState) : Prop :=
  state.sender.loop.Intact ∧ state.receiver.loop.Intact

/-- Both loops are accounted, and a task goes past its loop only once the loop
was left. -/
structure Sound (state : PipeState) : Prop where
  sender : state.sender.loop.Accounted
  receiver : state.receiver.loop.Accounted
  finAfterLoop :
    state.sender.finSent = true → state.sender.loop.phase = .left
  sent : state.sender.finished = true → state.sender.loop.phase = .left
  received :
    state.receiver.finished = true → state.receiver.loop.phase = .left
  heldBack : state.receiver.held ≤ state.receiver.loop.accepted.length

theorem start_sound (options : PipeOptions) : (start options).Sound where
  sender := CopyLoop.start_accounted _ _
  receiver := CopyLoop.start_accounted _ _
  finAfterLoop := fun sent => by cases sent
  sent := fun ended => by cases ended
  received := by
    intro ended
    have noOutput : options.hasOutput = false := by
      simpa [start] using ended
    simp [start, CopyLoop.start, noOutput]
  heldBack := Nat.zero_le _

theorem start_intact (options : PipeOptions) : (start options).Intact :=
  ⟨CopyLoop.start_intact_iff _ _, CopyLoop.start_intact_iff _ _⟩

end PipeState

theorem CopyLoop.inLoop_of_read
    {loop next : CopyLoop} {outcome : IoRead}
    (wasRead : loop.read outcome = some next) :
    loop.phase ≠ .left := by
  intro isLeft
  simp [CopyLoop.read, isLeft] at wasRead

theorem CopyLoop.inLoop_of_write
    {loop next : CopyLoop} {outcome : IoWrite}
    (wasWritten : loop.write outcome = some next) :
    loop.phase ≠ .left := by
  intro isLeft
  simp [CopyLoop.write, isLeft] at wasWritten

/-- A call keeps the state sound; it leaves both loops intact exactly when they
were and it does not fail. -/
theorem pipeStep_sound
    {state next : PipeState} {label : PipeLabel}
    (sound : state.Sound) (stepped : pipeStep state label = some next) :
    next.Sound ∧ (next.Intact ↔ state.Intact ∧ label.Succeeds) := by
  cases label with
  | sendRead outcome =>
      obtain ⟨loop, wasRead, rfl⟩ := Option.map_eq_some_iff.mp stepped
      have inLoop := CopyLoop.inLoop_of_read wasRead
      obtain ⟨accounted, _, _, intact⟩ :=
        CopyLoop.read_spec sound.sender wasRead
      refine ⟨?_, ?_⟩
      · exact
          { sound with
            sender := accounted
            finAfterLoop := fun sent =>
              absurd (sound.finAfterLoop sent) inLoop
            sent := fun ended => absurd (sound.sent ended) inLoop }
      · simp only [PipeState.Intact, PipeLabel.Succeeds, intact]
        tauto
  | sendWrite outcome =>
      obtain ⟨loop, wasWritten, rfl⟩ := Option.map_eq_some_iff.mp stepped
      have inLoop := CopyLoop.inLoop_of_write wasWritten
      obtain ⟨accounted, _, _, intact⟩ :=
        CopyLoop.write_spec sound.sender wasWritten
      refine ⟨?_, ?_⟩
      · exact
          { sound with
            sender := accounted
            finAfterLoop := fun sent =>
              absurd (sound.finAfterLoop sent) inLoop
            sent := fun ended => absurd (sound.sent ended) inLoop }
      · simp only [PipeState.Intact, PipeLabel.Succeeds, intact]
        tauto
  | sendShutdown succeeded =>
      obtain ⟨sender, shut, rfl⟩ := Option.map_eq_some_iff.mp stepped
      unfold PipeSender.shutdown at shut
      split at shut
      · rename_i enabled
        cases shut
        refine ⟨?_, ?_⟩
        · exact
            { sound with
              finAfterLoop := fun _ => enabled.1
              sent := fun _ => enabled.1 }
        · simp [PipeState.Intact, PipeLabel.Succeeds]
      · cases shut
  | recvRead outcome =>
      obtain ⟨loop, wasRead, rfl⟩ := Option.map_eq_some_iff.mp stepped
      have inLoop := CopyLoop.inLoop_of_read wasRead
      obtain ⟨accounted, _, sameAccepted, intact⟩ :=
        CopyLoop.read_spec sound.receiver wasRead
      refine ⟨?_, ?_⟩
      · exact
          { sound with
            receiver := accounted
            received := fun ended => absurd (sound.received ended) inLoop
            heldBack := by
              change state.receiver.held ≤ loop.accepted.length
              rw [sameAccepted]
              exact sound.heldBack }
      · simp only [PipeState.Intact, PipeLabel.Succeeds, intact]
        tauto
  | recvWrite outcome held =>
      obtain ⟨receiver, wrote, rfl⟩ := Option.map_eq_some_iff.mp stepped
      unfold PipeReceiver.write at wrote
      split at wrote
      · rename_i loop wasWritten
        have inLoop := CopyLoop.inLoop_of_write wasWritten
        obtain ⟨accounted, _, _, intact⟩ :=
          CopyLoop.write_spec sound.receiver wasWritten
        split at wrote
        · rename_i fits
          cases wrote
          have heldBack := sound.heldBack
          refine ⟨?_, ?_⟩
          · exact
              { sound with
                receiver := accounted
                received := fun ended =>
                  absurd (sound.received ended) inLoop
                heldBack := by
                  change held ≤ loop.accepted.length
                  omega }
          · simp only [PipeState.Intact, PipeLabel.Succeeds, intact]
            tauto
        · cases wrote
      · cases wrote
  | recvFlush held =>
      obtain ⟨receiver, flushed, rfl⟩ := Option.map_eq_some_iff.mp stepped
      unfold PipeReceiver.flush at flushed
      split at flushed
      · rename_i enabled
        obtain ⟨isLeft, _, fewer⟩ := enabled
        have heldBack := le_trans fewer sound.heldBack
        split at flushed
        · cases flushed
          refine ⟨?_, ?_⟩
          · exact
              { sound with
                received := fun _ => isLeft
                heldBack := heldBack }
          · simp [PipeState.Intact, PipeLabel.Succeeds]
        · cases flushed
          refine ⟨?_, ?_⟩
          · exact
              { sound with
                received := fun _ => isLeft
                heldBack := heldBack }
          · simp [PipeState.Intact, PipeLabel.Succeeds]
      · cases flushed

/-- Over a run: the loops stay intact exactly as long as no call fails. -/
theorem run_intact_iff
    {source target : PipeState} {labels : List PipeLabel}
    (run : Run pipeStep anyStep source labels target)
    (sound : source.Sound) :
    target.Sound ∧
      (target.Intact ↔
        source.Intact ∧ ∀ label ∈ labels, label.Succeeds) := by
  induction run with
  | refl state =>
      simp [sound]
  | cons _ stepped _ inductionHypothesis =>
      obtain ⟨nextSound, intact⟩ := pipeStep_sound sound stepped
      obtain ⟨finalSound, finalIntact⟩ := inductionHypothesis nextSound
      refine ⟨finalSound, ?_⟩
      rw [finalIntact, intact, List.forall_mem_cons, and_assoc]

theorem pipeStep_attached
    {state next : PipeState} {label : PipeLabel}
    (sound : state.Sound) (stepped : pipeStep state label = some next) :
    next.sender.loop.attached = state.sender.loop.attached ∧
      next.receiver.loop.attached = state.receiver.loop.attached := by
  cases label with
  | sendRead outcome =>
      obtain ⟨loop, wasRead, rfl⟩ := Option.map_eq_some_iff.mp stepped
      exact ⟨(CopyLoop.read_spec sound.sender wasRead).2.1, rfl⟩
  | sendWrite outcome =>
      obtain ⟨loop, wasWritten, rfl⟩ := Option.map_eq_some_iff.mp stepped
      exact ⟨(CopyLoop.write_spec sound.sender wasWritten).2.1, rfl⟩
  | sendShutdown succeeded =>
      obtain ⟨sender, shut, rfl⟩ := Option.map_eq_some_iff.mp stepped
      unfold PipeSender.shutdown at shut
      split at shut
      · cases shut
        exact ⟨rfl, rfl⟩
      · cases shut
  | recvRead outcome =>
      obtain ⟨loop, wasRead, rfl⟩ := Option.map_eq_some_iff.mp stepped
      exact ⟨rfl, (CopyLoop.read_spec sound.receiver wasRead).2.1⟩
  | recvWrite outcome held =>
      obtain ⟨receiver, wrote, rfl⟩ := Option.map_eq_some_iff.mp stepped
      unfold PipeReceiver.write at wrote
      split at wrote
      · rename_i loop wasWritten
        split at wrote
        · cases wrote
          exact
            ⟨rfl, (CopyLoop.write_spec sound.receiver wasWritten).2.1⟩
        · cases wrote
      · cases wrote
  | recvFlush held =>
      obtain ⟨receiver, flushed, rfl⟩ := Option.map_eq_some_iff.mp stepped
      unfold PipeReceiver.flush at flushed
      split at flushed
      · split at flushed <;>
        · cases flushed
          exact ⟨rfl, rfl⟩
      · cases flushed

theorem run_attached
    {source target : PipeState} {labels : List PipeLabel}
    (run : Run pipeStep anyStep source labels target)
    (sound : source.Sound) :
    target.sender.loop.attached = source.sender.loop.attached ∧
      target.receiver.loop.attached = source.receiver.loop.attached := by
  induction run with
  | refl state => exact ⟨rfl, rfl⟩
  | cons _ stepped _ inductionHypothesis =>
      have same := pipeStep_attached sound stepped
      have later := inductionHypothesis (pipeStep_sound sound stepped).1
      exact ⟨later.1.trans same.1, later.2.trans same.2⟩

theorem CopyLoop.Accounted.hash_eq
    {loop : CopyLoop} (accounted : loop.Accounted)
    (same : loop.accepted = loop.consumed) {hash : String}
    (isHash : loop.hash = some hash) :
    hash = sha256Hex loop.accepted := by
  obtain ⟨fed, wasFed, rfl⟩ := Option.map_eq_some_iff.mp isHash
  rw [accounted.hashed fed wasFed, same]

/-- A loop that was left intact copied everything that it read. -/
theorem CopyLoop.Accounted.copied_of_left
    {loop : CopyLoop} (accounted : loop.Accounted)
    (intact : loop.Intact) (isLeft : loop.phase = .left) :
    loop.accepted = loop.consumed ∧
      loop.bytes = loop.accepted.length := by
  obtain ⟨copied, counted⟩ := accounted.copied intact
  rw [CopyLoop.pending, isLeft, List.append_nil] at copied
  exact ⟨copied, counted⟩

/-- Nothing is held back exactly when all that was read was written. -/
theorem PipeReceiver.written_iff
    {receiver : PipeReceiver}
    (isPrefix : receiver.loop.accepted <+: receiver.loop.consumed)
    (heldBack : receiver.held ≤ receiver.loop.accepted.length) :
    receiver.written = receiver.loop.consumed ↔
      receiver.loop.accepted = receiver.loop.consumed ∧
        receiver.held = 0 := by
  constructor
  · intro written
    have lengths := congrArg List.length written
    have shorter := isPrefix.length_le
    rw [PipeReceiver.written, List.length_take] at lengths
    have noneHeld : receiver.held = 0 := by omega
    rw [PipeReceiver.written, noneHeld, Nat.sub_zero,
      List.take_length] at written
    exact ⟨written, noneHeld⟩
  · rintro ⟨same, noneHeld⟩
    rw [PipeReceiver.written, noneHeld, Nat.sub_zero, List.take_length,
      same]

/-- In a run without a failed call the FIN follows the end of the input; and
the result that `run_pipe` returns means a complete copy exactly when no call
failed, there is an output, and its writer held nothing back. -/
theorem pipe_complete_exactly
    {options : PipeOptions} {labels : List PipeLabel} {state : PipeState}
    (run : Run pipeStep anyStep (.start options) labels state) :
    ((∀ label ∈ labels, label.Succeeds) → state.FinAfterEnd) ∧
      ∀ result, state.result? = some result →
        (state.Complete result ↔
          (∀ label ∈ labels, label.Succeeds) ∧
            options.hasOutput = true ∧ state.receiver.held = 0) := by
  obtain ⟨sound, intactIff⟩ :=
    run_intact_iff run (PipeState.start_sound options)
  obtain ⟨_, receiverAttached⟩ :=
    run_attached run (PipeState.start_sound options)
  have intact_iff :
      state.Intact ↔ ∀ label ∈ labels, label.Succeeds := by
    rw [intactIff]
    exact and_iff_right (PipeState.start_intact options)
  have finAfterEnd : state.Intact → state.FinAfterEnd :=
    fun intact sent => intact.1 (sound.finAfterLoop sent)
  refine ⟨fun succeed => finAfterEnd (intact_iff.mpr succeed), ?_⟩
  intro result returned
  have ended :
      state.sender.finished = true ∧ state.receiver.finished = true := by
    by_contra notEnded
    rw [← Bool.and_eq_true] at notEnded
    rw [PipeState.result?, if_neg notEnded] at returned
    cases returned
  have sent := sound.sent ended.1
  have received := sound.received ended.2
  rw [PipeState.result?, ended.1, ended.2] at returned
  cases returned
  rw [← intact_iff]
  constructor
  · intro complete
    refine ⟨⟨?_, ?_⟩, ?_, ?_⟩
    · exact fun _ isAttached => complete.inputRead isAttached
    · exact fun _ _ => complete.streamRead
    · by_contra noOutput
      have notAttached : state.receiver.loop.attached = false := by
        rw [receiverAttached]
        exact (Bool.not_eq_true options.hasOutput).mp noOutput
      have notEnded := (sound.receiver.detached notAttached).2
      rw [complete.streamRead] at notEnded
      cases notEnded
    · exact
        ((PipeReceiver.written_iff sound.receiver.isPrefix
          sound.heldBack).mp complete.outputWritten).2
  · rintro ⟨intact, hasOutput, noneHeld⟩
    obtain ⟨sentAll, sentCount⟩ :=
      sound.sender.copied_of_left intact.1 sent
    obtain ⟨receivedAll, receivedCount⟩ :=
      sound.receiver.copied_of_left intact.2 received
    have isAttached : state.receiver.loop.attached = true :=
      receiverAttached.trans hasOutput
    exact
      { inputRead := intact.1 sent
        inputAccepted := sentAll
        streamRead := intact.2 received isAttached
        outputWritten :=
          (PipeReceiver.written_iff sound.receiver.isPrefix
            sound.heldBack).mpr ⟨receivedAll, noneHeld⟩
        finAfterEnd := finAfterEnd intact
        bytesSent := sentCount
        bytesReceived := receivedCount
        sentHash := fun _ => sound.sender.hash_eq sentAll
        receivedHash := fun _ => sound.receiver.hash_eq receivedAll }

/-- The input fails after its first byte: the FIN is sent all the same, and
`run_pipe` returns `Ok`. -/
theorem truncated_pipe_reported :
    ∃ state result,
      Run pipeStep anyStep (.start ⟨true, true, false⟩)
        [.sendRead (.bytes [7]), .sendWrite .all, .sendRead .failed,
          .sendShutdown true, .recvRead (.bytes []), .recvFlush 0,
          .recvFlush 0]
        state ∧
      state.result? = some result ∧
      ¬state.FinAfterEnd ∧ ¬state.Complete result := by
  refine ⟨_, _, run_of_replay rfl, rfl, by decide, ?_⟩
  intro complete
  exact absurd (complete.inputRead rfl) (by decide)

theorem pipe_complete_echo :
    ∃ (state : PipeState) (result : PipeResult),
      state.result? = some result ∧ state.Complete result ∧
        result.bytesSent = 1 ∧ result.bytesReceived = 2 := by
  have run :
      Run pipeStep anyStep (.start ⟨true, true, true⟩)
        [.sendRead (.bytes [7]), .sendWrite .all, .sendRead (.bytes []),
          .sendShutdown true, .recvRead (.bytes [8, 9]),
          .recvWrite .all 2, .recvRead (.bytes []), .recvFlush 0,
          .recvFlush 0]
        _ :=
    run_of_replay rfl
  have whole := (pipe_complete_exactly run).2 _ rfl
  exact ⟨_, _, rfl, whole.mpr ⟨by decide, rfl, rfl⟩, rfl, rfl⟩

end Quiczilla
