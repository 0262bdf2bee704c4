import Quiczilla.TransferProgress

/-!
# The arithmetic of the send loop

`total_bytes` is sampled once, and is 0 when that fails; the loop reads to the
end of the file.  What a report calls missing is a difference as long as no read
has gone past the sampled length.  The other two differences of the loop are
never negative.
-/

namespace Quiczilla

open Foundation

/-- No read of the source goes past the length that was sampled for it. -/
def ReadsWithinSample (watched : Peer × ProgressLog) (label : TimedLabel) :
    Prop :=
  match watched.1.sender, label.source with
  | .streaming stream, .peer (.send (.readChunk length)) =>
      stream.position + length ≤ stream.totalBytes
  | _, _ => True

/-- None of the subtractions of the send task has underflown. -/
def SendSubtracts (watched : Peer × ProgressLog) : Prop :=
  ∀ subtraction ∈ watched.2.subtractions, subtraction.task = .send →
    ¬ subtraction.Underflows

/-! ## The invariant -/

/-- What the loop has counted, and the last estimate. -/
structure SendStream.Measured (stream : SendStream) (meter : SpeedMeter) :
    Prop where
  offset : stream.job.resumeOffset ≤ stream.bytesTransferred
  estimated : meter.lastSpeedBytes ≤ stream.bytesTransferred
  counted : stream.bytesTransferred + stream.waiting = stream.position

/-- Nothing waits, or all that waits is within the sampled length. -/
def SendStream.WithinSample (stream : SendStream) : Prop :=
  stream.taken = none ∧ stream.chunks = [] ∨
    stream.position ≤ stream.totalBytes

/-- The invariant of the loop; `sampled` is whether the reads have been within
the sample. -/
structure SendMeasured (sampled : Prop) (peer : Peer) (log : ProgressLog) :
    Prop where
  stream :
    ∀ stream, peer.sender = .streaming stream →
      stream.Measured log.sendMeter ∧ (sampled → stream.WithinSample)
  entries :
    ∀ subtraction ∈ log.subtractions, subtraction.task = .send →
      (subtraction.quantity = .missing → sampled) →
        ¬ subtraction.Underflows

section Steps

variable {sampled : Prop} {peer next : Peer} {log : ProgressLog}

/-- A step beside the send task. -/
theorem SendMeasured.beside
    {later : ProgressLog} (holds : SendMeasured sampled peer log)
    (sameSender : next.sender = peer.sender)
    (extended : log.Extends .receive later) :
    SendMeasured sampled next later where
  stream := by
    intro stream isStreaming
    rw [sameSender] at isStreaming
    have sameMeter : later.sendMeter = log.sendMeter :=
      extended.others .send (by decide)
    rw [sameMeter]
    exact holds.stream stream isStreaming
  entries := by
    intro subtraction member isSend allowed
    obtain earlier | isReceive := extended.entries subtraction member
    · exact holds.entries subtraction earlier isSend allowed
    · rw [isSend] at isReceive
      cases isReceive

/-- A step of the send task that subtracts nothing. -/
theorem SendMeasured.restream
    (holds : SendMeasured sampled peer log) {stream : SendStream}
    (isStreaming : next.sender = .streaming stream)
    (measured : stream.Measured log.sendMeter)
    (within : sampled → stream.WithinSample) :
    SendMeasured sampled next log where
  stream := by
    intro other isOther
    rw [isStreaming] at isOther
    cases isOther
    exact ⟨measured, within⟩
  entries := holds.entries

/-- The iteration ends. -/
theorem SendMeasured.rest
    (holds : SendMeasured sampled peer log)
    (resting : ∀ stream, next.sender ≠ .streaming stream) :
    SendMeasured sampled next log where
  stream := fun stream isStreaming => absurd isStreaming (resting stream)
  entries := holds.entries

theorem sendMeasured_openSource
    (holds : SendMeasured sampled peer log) {job : SendJob}
    {outcome : OpenSource} (instants : Nat → Nat)
    (stepped : peer.openSource job outcome = some next) :
    SendMeasured sampled next
      (log.noteSend (.opening job) (.openSource outcome) instants) := by
  unfold Peer.openSource at stepped
  split at stepped
  · cases stepped
    constructor
    · intro stream isStreaming
      cases isStreaming
      refine ⟨⟨le_rfl, le_rfl, ?_⟩, fun _ => Or.inl ⟨rfl, rfl⟩⟩
      simp [SendJob.begin, SendStream.waiting]
    · exact holds.entries
  · cases stepped
  · split at stepped <;> cases stepped
    exact holds.rest (by simp [Peer.stopSending, Peer.emit])
  · cases stepped
    exact holds.rest (by simp [Peer.stopSending, Peer.emit])

/-- The count and the reports behind a chunk. -/
theorem sendMeasured_writeChunk
    (holds : SendMeasured sampled peer log) {stream : SendStream}
    (isStreaming : peer.sender = .streaming stream)
    (instants : Nat → Nat)
    (stepped : peer.writeChunk stream = some next) :
    SendMeasured sampled next
      (log.noteSend (.streaming stream) .writeChunk instants) := by
  obtain ⟨measured, within⟩ := holds.stream stream isStreaming
  unfold Peer.writeChunk at stepped
  split at stepped
  · rename_i chunk isTaken
    have counted := measured.counted
    rw [SendStream.waiting, isTaken, Option.getD_some] at counted
    have noted :
        log.noteSend (.streaming stream) .writeChunk instants =
          log.observe .send (stream.bytesTransferred + chunk.length)
            stream.totalBytes (instants 0) := by
      simp only [ProgressLog.noteSend, isTaken]
    rw [noted]
    have estimated :
        (log.meter .send).lastSpeedBytes ≤
          stream.bytesTransferred + chunk.length :=
      Nat.le_add_right_of_le measured.estimated
    have entries :
        ∀ subtraction ∈
          (log.observe .send (stream.bytesTransferred + chunk.length)
            stream.totalBytes (instants 0)).subtractions,
          subtraction.task = .send →
            (subtraction.quantity = .missing → sampled) →
              ¬ subtraction.Underflows := by
      intro subtraction member isSend allowed
      obtain earlier | rfl | rfl := ProgressLog.mem_observe member
      · exact holds.entries subtraction earlier isSend allowed
      · exact Nat.not_lt.mpr estimated
      · obtain ⟨notTaken, -⟩ | inSample := within (allowed rfl)
        · rw [isTaken] at notTaken
          cases notTaken
        · refine Nat.not_lt.mpr ?_
          change stream.bytesTransferred + chunk.length ≤
            stream.totalBytes
          omega
    split at stepped
    · cases stepped
    · split at stepped
      · cases stepped
        refine ⟨fun other isOther => ?_, entries⟩
        cases isOther
      · cases stepped
        refine ⟨fun other isOther => ?_, entries⟩
        cases isOther
        refine
          ⟨⟨Nat.le_add_right_of_le measured.offset,
            ProgressLog.lastSpeedBytes_observe estimated, ?_⟩, ?_⟩
        · simp only [SendStream.waiting, Option.getD_none,
            List.length_nil]
          omega
        · intro isSampled
          obtain ⟨notTaken, -⟩ | inSample := within isSampled
          · rw [isTaken] at notTaken
            cases notTaken
          · exact Or.inr inSample
  · cases stepped

theorem sendMeasured_finish
    (holds : SendMeasured sampled peer log) {stream : SendStream}
    (isStreaming : peer.sender = .streaming stream)
    {rehashFails : Bool} (instants : Nat → Nat)
    (stepped : peer.finishSending stream rehashFails = some next) :
    SendMeasured sampled next
      (log.noteSend (.streaming stream) (.finish rehashFails)
        instants) := by
  obtain ⟨measured, -⟩ := holds.stream stream isStreaming
  unfold Peer.finishSending at stepped
  split at stepped
  · split at stepped
    · cases stepped
    · rename_i hasFailed
      cases stepped
      simp only [ProgressLog.noteSend, hasFailed]
      exact holds.rest (by simp [Peer.stopSending])
    · rename_i inlineHash hasFinished
      cases stepped
      simp only [ProgressLog.noteSend, hasFinished]
      constructor
      · intro other isOther
        cases isOther
      · intro subtraction member isSend allowed
        obtain earlier | rfl := ProgressLog.mem_finish member
        · exact holds.entries subtraction earlier isSend allowed
        · exact Nat.not_lt.mpr measured.offset
  · cases stepped

theorem sendMeasured_streaming
    (holds : SendMeasured sampled peer log) {stream : SendStream}
    (isStreaming : peer.sender = .streaming stream)
    {label : SendLabel} (instants : Nat → Nat)
    (reads :
      sampled → ∀ length, label = .readChunk length →
        stream.position + length ≤ stream.totalBytes)
    (stepped : peer.sendStep label = some next) :
    SendMeasured sampled next
      (log.noteSend (.streaming stream) label instants) := by
  obtain ⟨measured, within⟩ := holds.stream stream isStreaming
  have counted := measured.counted
  rw [SendStream.waiting] at counted
  unfold Peer.sendStep at stepped
  rw [isStreaming] at stepped
  cases label with
  | start => cases stepped
  | openSource outcome => cases stepped
  | readChunk length =>
      simp only [Peer.readChunk] at stepped
      split at stepped <;> cases stepped
      rename_i readable
      obtain ⟨-, -, -, isLength, -⟩ := readable
      refine
        holds.restream rfl ⟨measured.offset, measured.estimated, ?_⟩
          fun isSampled => Or.inr (reads isSampled length rfl)
      simp only [SendStream.waiting, List.flatten_append,
        List.flatten_singleton, List.length_append, isLength]
      omega
  | readEnd =>
      simp only [Peer.readEnd] at stepped
      split at stepped
      · split at stepped <;> cases stepped
        exact
          holds.restream rfl
            ⟨measured.offset, measured.estimated, measured.counted⟩ within
      · cases stepped
  | readFails =>
      simp only at stepped
      split at stepped <;> cases stepped
      exact
        holds.restream rfl
          ⟨measured.offset, measured.estimated, measured.counted⟩ within
  | takeChunk =>
      simp only at stepped
      split at stepped <;> cases stepped
      rename_i chunk rest isTaken areChunks
      refine
        holds.restream rfl ⟨measured.offset, measured.estimated, ?_⟩ ?_
      · rw [isTaken, areChunks] at counted
        simpa [SendStream.waiting] using counted
      · intro isSampled
        obtain ⟨-, noChunks⟩ | inSample := within isSampled
        · rw [areChunks] at noChunks
          cases noChunks
        · exact Or.inr inSample
  | writeChunk =>
      exact sendMeasured_writeChunk holds isStreaming instants stepped
  | writeStops length =>
      simp only [Peer.writeStops] at stepped
      split at stepped
      · split at stepped <;> cases stepped
        exact holds.rest (by simp [Peer.stopSending])
      · cases stepped
  | report =>
      cases stepped
      exact holds.restream isStreaming measured within
  | finish rehashFails =>
      exact sendMeasured_finish holds isStreaming instants stepped

theorem sendMeasured_send
    (holds : SendMeasured sampled peer log)
    {label : SendLabel} (instants : Nat → Nat)
    (reads :
      sampled → ∀ stream length, peer.sender = .streaming stream →
        label = .readChunk length →
          stream.position + length ≤ stream.totalBytes)
    (stepped : peer.sendStep label = some next) :
    SendMeasured sampled next
      (log.noteSend peer.sender label instants) := by
  cases phase : peer.sender with
  | idle =>
      unfold Peer.sendStep at stepped
      rw [phase] at stepped
      cases label <;> simp only at stepped <;> try cases stepped
      split at stepped <;> cases stepped
      exact holds.rest (by simp)
  | opening job =>
      unfold Peer.sendStep at stepped
      rw [phase] at stepped
      cases label <;> simp only at stepped <;> try cases stepped
      exact sendMeasured_openSource holds instants stepped
  | streaming stream =>
      exact
        sendMeasured_streaming holds phase instants
          (fun isSampled length => reads isSampled stream length phase)
          stepped

theorem SendingEffect.sender_eq
    {side other : SendingSide} (effect : SendingEffect side other) :
    other.sender = side.sender := by
  cases effect with
  | quiet => rfl
  | announced pending size => rfl
  | queued job waits isOffer => rfl
  | kept pending waits => rfl

/-- A step beside the send task leaves its phase. -/
theorem sender_beside
    {label : SourceLabel}
    (notSend : ∀ sendLabel, label ≠ .peer (.send sendLabel))
    (stepped : sourceStep peer label = some next) :
    next.sender = peer.sender := by
  obtain effect | ⟨sendLabel, isSend, -⟩ := sourceStep_sending stepped
  · exact effect.sender_eq
  · exact absurd isSend (notSend sendLabel)

end Steps

/-! ## Runs -/

theorem sendMeasured_initial (sampled : Prop) (files : Files) :
    SendMeasured sampled (.initial files) .initial where
  stream := fun _ isStreaming => by cases isStreaming
  entries := fun _ member => by cases member

/-- One step of a watched peer. -/
theorem sendMeasured_step
    {sampled : Prop} {watched next : Peer × ProgressLog}
    {label : TimedLabel}
    (holds : SendMeasured sampled watched.1 watched.2)
    (reads : sampled → ReadsWithinSample watched label)
    (stepped : timedStep watched label = some next) :
    SendMeasured sampled next.1 next.2 := by
  obtain ⟨moved, isNoted⟩ := withHistory_eq_some.mp stepped
  rw [isNoted]
  have beside
      (notSend : ∀ sendLabel, label.source ≠ .peer (.send sendLabel))
      (extended :
        watched.2.Extends .receive
          (noteProgress watched.1 label next.1 watched.2)) :
      SendMeasured sampled next.1
        (noteProgress watched.1 label next.1 watched.2) :=
    holds.beside (sender_beside notSend moved) extended
  unfold ReadsWithinSample at reads
  cases source : label.source with
  | change files =>
      refine beside (by simp [source]) ?_
      rw [noteProgress, source]
      exact ProgressLog.Extends.refl .receive watched.2
  | peer peerLabel =>
      cases peerLabel with
      | send sendLabel =>
          rw [source] at moved reads
          rw [noteProgress, source]
          apply sendMeasured_send holds label.instants _ moved
          intro isSampled stream length isStreaming isRead
          have within := reads isSampled
          rw [isStreaming, isRead] at within
          exact within
      | recv recvLabel =>
          refine beside (by simp [source]) ?_
          rw [noteProgress, source]
          exact ProgressLog.extends_noteReceive watched.2 _ recvLabel _ _
      | control letter faults =>
          refine beside (by simp [source]) ?_
          rw [noteProgress, source]
          exact ProgressLog.Extends.refl .receive watched.2
      | command command faults =>
          refine beside (by simp [source]) ?_
          rw [noteProgress, source]
          exact ProgressLog.Extends.refl .receive watched.2
      | loopEnds reason =>
          refine beside (by simp [source]) ?_
          rw [noteProgress, source]
          exact ProgressLog.Extends.refl .receive watched.2

/-- Whatever the reads find, only what is missing can underflow. -/
theorem only_missing_underflows
    {files : Files} {labels : List TimedLabel}
    {watched : Peer × ProgressLog}
    (run :
      Run timedStep anyStep (.initial files, .initial) labels watched)
    {subtraction : Subtraction}
    (member : subtraction ∈ watched.2.subtractions)
    (isSend : subtraction.task = .send)
    (underflows : subtraction.Underflows) :
    subtraction.quantity = .missing := by
  have holds : SendMeasured False watched.1 watched.2 :=
    run.preserves (fun watched => SendMeasured False watched.1 watched.2)
      (fun _ _ _ holds _ stepped =>
        sendMeasured_step holds False.elim stepped)
      (sendMeasured_initial False files)
  by_contra notMissing
  exact
    holds.entries subtraction member isSend
      (fun isMissing => absurd isMissing notMissing) underflows

/-- As long as the reads stay within the sampled length, no subtraction of the
send task underflows. -/
theorem sendSubtracts_of_reads
    {files : Files} {labels : List TimedLabel}
    {watched : Peer × ProgressLog}
    (run :
      Run timedStep ReadsWithinSample (.initial files, .initial) labels
        watched) :
    SendSubtracts watched := by
  have holds : SendMeasured True watched.1 watched.2 :=
    run.preserves (fun watched => SendMeasured True watched.1 watched.2)
      (fun _ _ _ holds within stepped =>
        sendMeasured_step holds (fun _ => within) stepped)
      (sendMeasured_initial True files)
  intro subtraction member isSend
  exact holds.entries subtraction member isSend fun _ => trivial

theorem ProgressLog.meter_estimate
    {log : ProgressLog} {task : TransferTask} {transferred now : Nat} :
    (log.estimate task transferred now).meter task =
      (log.meter task).estimate task transferred now := by
  rw [estimate]
  split
  · cases task <;> rfl
  · rename_i notDue
    rw [SpeedMeter.estimate, if_neg notDue]

/-- An estimate that is due is positive behind new bytes. -/
theorem SpeedMeter.currentSpeed_estimate
    {meter : SpeedMeter} {task : TransferTask} {transferred now : Nat}
    (due : meter.estimateDue now)
    (moved : meter.lastSpeedBytes < transferred)
    (is64 : transferred < 2 ^ 64) :
    0 < (meter.estimate task transferred now).currentSpeed := by
  have elapsed : 0 < now - meter.lastSpeedTime := by
    have long := of_decide_eq_true due
    rw [speedEstimationInterval] at long
    omega
  have positive : 0 < (meter.sinceEstimate task transferred).wrapped := by
    simp only [sinceEstimate, Subtraction.wrapped]
    omega
  rw [estimate, if_pos due]
  exact
    div_pos (Nat.cast_pos.mpr positive)
      (div_pos (Nat.cast_pos.mpr elapsed) (by decide))

/-- Once both are due, the report behind new bytes says what is missing. -/
theorem ProgressLog.missing_mem_observe
    {log : ProgressLog} {task : TransferTask} {transferred total now : Nat}
    (estimates : (log.meter task).estimateDue now)
    (reports : (log.meter task).reportDue now)
    (moved : (log.meter task).lastSpeedBytes < transferred)
    (is64 : transferred < 2 ^ 64) :
    SpeedMeter.missing task transferred total ∈
      (log.observe task transferred total now).subtractions := by
  have due :
      ((log.estimate task transferred now).meter task).reportDue now := by
    rw [meter_estimate, SpeedMeter.estimate, if_pos estimates]
    exact reports
  have estimated :
      0 <
        ((log.estimate task transferred now).meter task).currentSpeed := by
    rw [meter_estimate]
    exact SpeedMeter.currentSpeed_estimate estimates moved is64
  rw [observe, report, if_pos due, if_pos estimated]
  cases task <;> exact List.mem_append_right _ List.mem_cons_self

/-- Behind a chunk that ends past the sampled length there is an instant at
which the report subtracts too much. -/
theorem late_report_underflows
    {log : ProgressLog} {stream : SendStream} {chunk : List UInt8}
    (measured : stream.Measured log.sendMeter)
    (isTaken : stream.taken = some chunk)
    (nonempty : 0 < chunk.length)
    (is64 : stream.bytesTransferred + chunk.length < 2 ^ 64)
    (past : stream.totalBytes < stream.bytesTransferred + chunk.length) :
    ∃ instants,
      ∃ subtraction ∈
          (log.noteSend (.streaming stream) .writeChunk
            instants).subtractions,
        subtraction.task = .send ∧ subtraction.Underflows := by
  obtain ⟨now, isNow⟩ :
      ∃ now,
        now =
          log.sendMeter.lastSpeedTime + speedEstimationInterval +
            (log.sendMeter.lastReportTime + progressReportInterval) :=
    ⟨_, rfl⟩
  have estimates : (log.meter .send).estimateDue now := by
    apply decide_eq_true
    change speedEstimationInterval ≤ now - log.sendMeter.lastSpeedTime
    omega
  have reports : (log.meter .send).reportDue now := by
    apply decide_eq_true
    change progressReportInterval ≤ now - log.sendMeter.lastReportTime
    omega
  have moved :
      (log.meter .send).lastSpeedBytes <
        stream.bytesTransferred + chunk.length :=
    Nat.lt_of_le_of_lt measured.estimated (Nat.lt_add_of_pos_right nonempty)
  have noted :
      log.noteSend (.streaming stream) .writeChunk (fun _ => now) =
        log.observe .send (stream.bytesTransferred + chunk.length)
          stream.totalBytes now := by
    simp only [ProgressLog.noteSend, isTaken]
  refine
    ⟨fun _ => now,
      SpeedMeter.missing .send (stream.bytesTransferred + chunk.length)
        stream.totalBytes, ?_, rfl, past⟩
  rw [noted]
  exact ProgressLog.missing_mem_observe estimates reports moved is64

/-- `a` is offered, changed, accepted at byte zero and opened; its two bytes
are written two seconds later. -/
def timedSend (metadataFails : Bool) (content : List UInt8) :
    List TimedLabel :=
  [⟨.peer (.command (.sendFile "a" false false) .none), fun _ => 0, 0⟩,
    ⟨.change (sourceFiles content), fun _ => 0, 0⟩,
    ⟨.peer (.control ⟨.ready, 0⟩ .none), fun _ => 0, 0⟩,
    ⟨.peer (.send .start), fun _ => 0, 0⟩,
    ⟨.peer (.send (.openSource (.opened metadataFails))), fun _ => 0, 0⟩,
    ⟨.peer (.send (.readChunk content.length)), fun _ => 0, 0⟩,
    ⟨.peer (.send .readEnd), fun _ => 0, 0⟩,
    ⟨.peer (.send .takeChunk), fun _ => 0, 0⟩,
    ⟨.peer (.send .writeChunk), fun _ => 2000000000, 0⟩,
    ⟨.peer (.send (.finish false)), fun _ => 3000000000, 0⟩]

instance (watched : Peer × ProgressLog) (label : TimedLabel) :
    Decidable (ReadsWithinSample watched label) := by
  delta ReadsWithinSample
  split <;> infer_instance

theorem sendSubtracts_of_changed_source :
    ∃ watched,
      Run timedStep ReadsWithinSample
          (.initial (sourceFiles [1]), .initial) (timedSend false [2, 3])
          watched ∧
        watched.2.subtractions.length = 3 ∧ SendSubtracts watched := by
  have ran :
      (guardedReplay timedStep ReadsWithinSample
          (.initial (sourceFiles [1]), .initial)
          (timedSend false [2, 3])).map
          (fun watched => watched.2.subtractions.length) =
        some 3 := by
    decide +kernel
  obtain ⟨watched, reached, isLength⟩ := Option.map_eq_some_iff.mp ran
  have run := run_of_guardedReplay reached
  exact ⟨watched, run, isLength, sendSubtracts_of_reads run⟩

/-- Where the metadata call fails, a report behind two bytes wraps. -/
theorem unknown_length_underflows :
    ∃ watched,
      Run timedStep anyStep (.initial (sourceFiles [2, 3]), .initial)
          (timedSend true [2, 3]) watched ∧
        ⟨.send, .missing, 0, 2⟩ ∈ watched.2.subtractions ∧
          ¬ SendSubtracts watched := by
  have ran :
      (replay timedStep (.initial (sourceFiles [2, 3]), .initial)
          (timedSend true [2, 3])).map
          (fun watched => watched.2.subtractions) =
        some
          [⟨.send, .sinceEstimate, 2, 0⟩, ⟨.send, .missing, 0, 2⟩,
            ⟨.send, .sinceStart, 2, 0⟩] := by
    decide +kernel
  obtain ⟨watched, reached, isList⟩ := Option.map_eq_some_iff.mp ran
  have member :
      ⟨.send, .missing, 0, 2⟩ ∈ watched.2.subtractions := by
    rw [isList]
    decide
  refine ⟨watched, run_of_replay reached, member, fun subtracts => ?_⟩
  exact subtracts _ member rfl (show 0 < 2 by decide)

end Quiczilla
