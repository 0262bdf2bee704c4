import Mathlib.Data.Rat.Defs
import Mathlib.Algebra.Order.Field.Rat
import Quiczilla.AnnouncedSize

/-!
# Progress reports

Both transfer tasks estimate their speed every two seconds and report their
progress every half second.  The clock is read by the steps of the tasks, so
that it is part of the labels; a later reading may be an earlier time, and then
no time has passed.  Instants are in nanoseconds.

The history of a run has the locals of both loops that only the reports use,
the reports, and every unsigned subtraction with its operands.  A release build
wraps where an operand is too small.  Quotients are rational here; in the
program they are rounded.
-/

namespace Quiczilla

open Foundation

/-! ## The estimate of one loop -/

/-- `SPEED_ESTIMATION_INTERVAL_MS`. -/
def speedEstimationInterval : Nat := 2000 * 1000000

/-- `PROGRESS_REPORT_INTERVAL_MS`. -/
def progressReportInterval : Nat := 500 * 1000000

/-- `as_secs_f64`. -/
def seconds (duration : Nat) : ℚ := duration / 1000000000

structure ProgressInfo where
  bytesTransferred : Nat
  totalBytes : Nat
  speedBytesPerSecond : ℚ
  percentage : ℚ
  estimatedRemainingSecs : Option ℚ
  isCompleted : Bool
  averageSpeedBytesPerSecond : Option ℚ
  totalTimeSecs : Option ℚ
  deriving DecidableEq

inductive TransferTask where
  | send
  | receive
  deriving DecidableEq, Repr

/-- What a subtraction computes: the bytes that a read may still take, those
that a report calls missing, and those that a speed is made of. -/
inductive Quantity where
  | readable
  | missing
  | sinceEstimate
  | sinceStart
  deriving DecidableEq, Repr

structure Subtraction where
  task : TransferTask
  quantity : Quantity
  minuend : Nat
  subtrahend : Nat
  deriving DecidableEq, Repr

def Subtraction.Underflows (subtraction : Subtraction) : Prop :=
  subtraction.minuend < subtraction.subtrahend

/-- The difference of two 64-bit numbers, as a release build has it. -/
def Subtraction.wrapped (subtraction : Subtraction) : Nat :=
  (subtraction.minuend + 2 ^ 64 - subtraction.subtrahend) % 2 ^ 64

/-- The locals of a loop that its reports are made of. -/
structure SpeedMeter where
  startTime : Nat
  lastReportTime : Nat
  lastSpeedTime : Nat
  lastSpeedBytes : Nat
  currentSpeed : ℚ
  deriving DecidableEq

namespace SpeedMeter

/-- The three calls of `Instant::now` in front of the loop. -/
def start (instants : Nat → Nat) (offset : Nat) : SpeedMeter where
  startTime := instants 0
  lastReportTime := instants 1
  lastSpeedTime := instants 2
  lastSpeedBytes := offset
  currentSpeed := 0

def estimateDue (meter : SpeedMeter) (now : Nat) : Bool :=
  speedEstimationInterval ≤ now - meter.lastSpeedTime

def sinceEstimate
    (meter : SpeedMeter) (task : TransferTask) (transferred : Nat) :
    Subtraction :=
  ⟨task, .sinceEstimate, transferred, meter.lastSpeedBytes⟩

/-- The new estimate of the speed, when it is time for one. -/
def estimate
    (meter : SpeedMeter) (task : TransferTask) (transferred now : Nat) :
    SpeedMeter :=
  if meter.estimateDue now then
    { meter with
      currentSpeed :=
        (meter.sinceEstimate task transferred).wrapped /
          seconds (now - meter.lastSpeedTime)
      lastSpeedBytes := transferred
      lastSpeedTime := now }
  else meter

def reportDue (meter : SpeedMeter) (now : Nat) : Bool :=
  progressReportInterval ≤ now - meter.lastReportTime

def missing
    (task : TransferTask) (transferred total : Nat) : Subtraction :=
  ⟨task, .missing, total, transferred⟩

/-- The report of a running transfer. -/
def report
    (meter : SpeedMeter) (task : TransferTask) (transferred total : Nat) :
    ProgressInfo where
  bytesTransferred := transferred
  totalBytes := total
  speedBytesPerSecond := meter.currentSpeed
  percentage := if 0 < total then transferred / total * 100 else 0
  estimatedRemainingSecs :=
    if 0 < meter.currentSpeed then
      some ((missing task transferred total).wrapped / meter.currentSpeed)
    else none
  isCompleted := false
  averageSpeedBytesPerSecond := none
  totalTimeSecs := none

def sinceStart
    (task : TransferTask) (transferred offset : Nat) : Subtraction :=
  ⟨task, .sinceStart, transferred, offset⟩

/-- The report of a transfer that has ended. -/
def finalReport
    (meter : SpeedMeter) (task : TransferTask)
    (transferred total offset now : Nat) : ProgressInfo where
  bytesTransferred := transferred
  totalBytes := total
  speedBytesPerSecond := meter.currentSpeed
  percentage := 100
  estimatedRemainingSecs := some 0
  isCompleted := true
  averageSpeedBytesPerSecond :=
    some
      (if 0 < now - meter.startTime then
        (sinceStart task transferred offset).wrapped /
          seconds (now - meter.startTime)
      else 0)
  totalTimeSecs := some (seconds (now - meter.startTime))

end SpeedMeter

/-! ## The history of both tasks -/

/-- `totalReceived` outlives the receive loop; `consumed` counts what its reads
took from the file stream. -/
structure ProgressLog where
  sendMeter : SpeedMeter
  recvMeter : SpeedMeter
  totalReceived : Nat
  consumed : Nat
  subtractions : List Subtraction
  reports : List ProgressInfo

namespace ProgressLog

def initial : ProgressLog where
  sendMeter := .start (fun _ => 0) 0
  recvMeter := .start (fun _ => 0) 0
  totalReceived := 0
  consumed := 0
  subtractions := []
  reports := []

def meter (log : ProgressLog) : TransferTask → SpeedMeter
  | .send => log.sendMeter
  | .receive => log.recvMeter

def withMeter (log : ProgressLog) (task : TransferTask)
    (meter : SpeedMeter) : ProgressLog :=
  match task with
  | .send => { log with sendMeter := meter }
  | .receive => { log with recvMeter := meter }

def subtract (log : ProgressLog) (subtraction : Subtraction) :
    ProgressLog :=
  { log with subtractions := log.subtractions ++ [subtraction] }

def tell (log : ProgressLog) (report : ProgressInfo) : ProgressLog :=
  { log with reports := log.reports ++ [report] }

/-- The estimate of the speed behind a chunk. -/
def estimate
    (log : ProgressLog) (task : TransferTask) (transferred now : Nat) :
    ProgressLog :=
  if (log.meter task).estimateDue now then
    (log.subtract
        ((log.meter task).sinceEstimate task transferred)).withMeter task
      ((log.meter task).estimate task transferred now)
  else log

/-- The report behind a chunk. -/
def report
    (log : ProgressLog) (task : TransferTask)
    (transferred total now : Nat) : ProgressLog :=
  if (log.meter task).reportDue now then
    ((if 0 < (log.meter task).currentSpeed then
        log.subtract (SpeedMeter.missing task transferred total)
      else log).tell
          ((log.meter task).report task transferred total)).withMeter task
      { log.meter task with lastReportTime := now }
  else log

/-- What follows every chunk. -/
def observe
    (log : ProgressLog) (task : TransferTask)
    (transferred total now : Nat) : ProgressLog :=
  (log.estimate task transferred now).report task transferred total now

/-- What follows the last chunk. -/
def finish
    (log : ProgressLog) (task : TransferTask)
    (transferred total offset now : Nat) : ProgressLog :=
  (if 0 < now - (log.meter task).startTime then
      log.subtract (SpeedMeter.sinceStart task transferred offset)
    else log).tell
    ((log.meter task).finalReport task transferred total offset now)

/-- What a step of the file send task notes. -/
def noteSend
    (log : ProgressLog) (sender : SendPhase) (label : SendLabel)
    (instants : Nat → Nat) : ProgressLog :=
  match sender, label with
  | .opening job, .openSource (.opened _) =>
      log.withMeter .send (.start instants job.resumeOffset)
  | .streaming stream, .writeChunk =>
      match stream.taken with
      | some chunk =>
          log.observe .send (stream.bytesTransferred + chunk.length)
            stream.totalBytes (instants 0)
      | none => log
  | .streaming stream, .finish _ =>
      match stream.reader with
      | .finished _ =>
          log.finish .send stream.bytesTransferred stream.totalBytes
            stream.job.resumeOffset (instants 0)
      | _ => log
  | _, _ => log

/-- The bytes that the next read is limited to. -/
def readable (receiving : Receiving) : Subtraction :=
  ⟨.receive, .readable, receiving.job.fileSize, receiving.totalReceived⟩

/-- `to_read`. -/
def toRead (receiving : Receiving) : Nat :=
  min (readable receiving).wrapped fileChunkSize

/-- What a step of the file receive task notes.  A read whose chunk finds the
disk writer gone has taken its bytes, too. -/
def noteReceive
    (log : ProgressLog) (receiver : RecvPhase) (label : RecvLabel)
    (instants : Nat → Nat) (lost : Nat) : ProgressLog :=
  match receiver, label with
  | .opening job, .openTarget .opened =>
      { log.withMeter .receive (.start instants job.resumeOffset) with
        totalReceived := job.resumeOffset
        consumed := 0 }
  | .receiving receiving, .receive chunk =>
      observe
        { log.subtract (readable receiving) with
          totalReceived := receiving.totalReceived + chunk.length
          consumed := log.consumed + chunk.length }
        .receive (receiving.totalReceived + chunk.length)
        receiving.job.fileSize (instants 0)
  | .receiving receiving, .receiveFails =>
      { log.subtract (readable receiving) with
        consumed := log.consumed + min lost (toRead receiving) }
  | .verifying verifying, .verify _ =>
      log.finish .receive log.totalReceived verifying.job.fileSize
        verifying.job.resumeOffset (instants 0)
  | _, _ => log

end ProgressLog

/-- A step, the readings of the clock in it, and what a failing read took. -/
structure TimedLabel where
  source : SourceLabel
  instants : Nat → Nat
  lost : Nat

def noteProgress (peer : Peer) (label : TimedLabel) (_ : Peer)
    (log : ProgressLog) : ProgressLog :=
  match label.source with
  | .peer (.send sendLabel) =>
      log.noteSend peer.sender sendLabel label.instants
  | .peer (.recv recvLabel) =>
      log.noteReceive peer.receiver recvLabel label.instants label.lost
  | _ => log

/-- A peer with its progress, among others that change the files. -/
def timedStep :
    Peer × ProgressLog → TimedLabel → Option (Peer × ProgressLog) :=
  withHistory (fun peer label => sourceStep peer label.source)
    noteProgress

/-! ## What the log gains -/

namespace ProgressLog

variable {log : ProgressLog} {task : TransferTask}
  {transferred total now : Nat}

/-- The entries of the other task and its meter are left alone. -/
structure Extends (task : TransferTask) (log next : ProgressLog) : Prop where
  entries :
    ∀ subtraction ∈ next.subtractions,
      subtraction ∈ log.subtractions ∨ subtraction.task = task
  others : ∀ other, other ≠ task → next.meter other = log.meter other

theorem Extends.refl (task : TransferTask) (log : ProgressLog) :
    log.Extends task log where
  entries := fun _ member => Or.inl member
  others := fun _ _ => rfl

theorem Extends.trans
    {middle next : ProgressLog} (first : log.Extends task middle)
    (second : middle.Extends task next) : log.Extends task next where
  entries := by
    intro subtraction member
    obtain earlier | own := second.entries subtraction member
    · exact first.entries subtraction earlier
    · exact Or.inr own
  others := by
    intro other different
    rw [second.others other different, first.others other different]

theorem extends_withMeter (log : ProgressLog) (task : TransferTask)
    (meter : SpeedMeter) : log.Extends task (log.withMeter task meter) := by
  constructor
  · intro subtraction member
    cases task <;> exact Or.inl member
  · intro other different
    cases task <;> cases other <;>
      first
      | rfl
      | exact absurd rfl different

theorem extends_subtract
    (log : ProgressLog) (subtraction : Subtraction)
    (own : subtraction.task = task) :
    log.Extends task (log.subtract subtraction) := by
  constructor
  · intro other member
    obtain earlier | new := List.mem_append.mp member
    · exact Or.inl earlier
    · rw [List.mem_singleton.mp new]
      exact Or.inr own
  · intro other _
    cases other <;> rfl

theorem extends_tell (log : ProgressLog) (task : TransferTask)
    (report : ProgressInfo) : log.Extends task (log.tell report) := by
  constructor
  · exact fun _ member => Or.inl member
  · intro other _
    cases other <;> rfl

theorem extends_observe (log : ProgressLog) (task : TransferTask)
    (transferred total now : Nat) :
    log.Extends task (log.observe task transferred total now) := by
  have estimated :
      log.Extends task (log.estimate task transferred now) := by
    rw [estimate]
    split
    · exact
        (extends_subtract log
            ((log.meter task).sinceEstimate task transferred) rfl).trans
          (extends_withMeter _ task _)
    · exact Extends.refl task log
  rw [observe]
  refine estimated.trans ?_
  generalize log.estimate task transferred now = middle
  rw [report]
  split
  · split
    · exact
        ((extends_subtract middle
            (SpeedMeter.missing task transferred total) rfl).trans
          (extends_tell _ task _)).trans (extends_withMeter _ task _)
    · exact
        (extends_tell middle task _).trans (extends_withMeter _ task _)
  · exact Extends.refl task middle

theorem extends_finish (log : ProgressLog) (task : TransferTask)
    (transferred total offset now : Nat) :
    log.Extends task
      (log.finish task transferred total offset now) := by
  rw [finish]
  split
  · exact
      (extends_subtract log
          (SpeedMeter.sinceStart task transferred offset) rfl).trans
        (extends_tell _ task _)
  · exact extends_tell log task _

theorem extends_noteSend (log : ProgressLog) (sender : SendPhase)
    (label : SendLabel) (instants : Nat → Nat) :
    log.Extends .send (log.noteSend sender label instants) := by
  rw [noteSend.eq_def]
  split
  · exact extends_withMeter log .send _
  · split
    · exact extends_observe log .send _ _ _
    · exact Extends.refl .send log
  · split
    · exact extends_finish log .send _ _ _ _
    · exact Extends.refl .send log
  · exact Extends.refl .send log

theorem extends_noteReceive (log : ProgressLog) (receiver : RecvPhase)
    (label : RecvLabel) (instants : Nat → Nat) (lost : Nat) :
    log.Extends .receive
      (log.noteReceive receiver label instants lost) := by
  have sameEntries {next : ProgressLog}
      (isEntries : next.subtractions = log.subtractions)
      (isMeter : next.sendMeter = log.sendMeter) :
      log.Extends .receive next := by
    constructor
    · intro subtraction member
      rw [isEntries] at member
      exact Or.inl member
    · intro other different
      cases other with
      | send => exact isMeter
      | receive => exact absurd rfl different
  have subtracted {next : ProgressLog} (receiving : Receiving)
      (isEntries :
        next.subtractions = log.subtractions ++ [readable receiving])
      (isMeter : next.sendMeter = log.sendMeter) :
      log.Extends .receive next := by
    constructor
    · intro subtraction member
      rw [isEntries, List.mem_append, List.mem_singleton] at member
      obtain earlier | rfl := member
      · exact Or.inl earlier
      · exact Or.inr rfl
    · intro other different
      cases other with
      | send => exact isMeter
      | receive => exact absurd rfl different
  rw [noteReceive.eq_def]
  split
  · exact sameEntries rfl rfl
  · rename_i receiving chunk
    refine Extends.trans ?_ (extends_observe _ .receive _ _ _)
    exact subtracted receiving rfl rfl
  · rename_i receiving
    exact subtracted receiving rfl rfl
  · exact extends_finish log .receive _ _ _ _
  · exact Extends.refl .receive log

/-- The subtractions behind a chunk. -/
theorem mem_observe
    {subtraction : Subtraction}
    (member :
      subtraction ∈ (log.observe task transferred total now).subtractions) :
    subtraction ∈ log.subtractions ∨
      subtraction = (log.meter task).sinceEstimate task transferred ∨
        subtraction = SpeedMeter.missing task transferred total := by
  have estimated :
      ∀ other ∈ (log.estimate task transferred now).subtractions,
        other ∈ log.subtractions ∨
          other = (log.meter task).sinceEstimate task transferred := by
    intro other isOther
    rw [estimate] at isOther
    split at isOther
    · have appended :
          other ∈
            log.subtractions ++
              [(log.meter task).sinceEstimate task transferred] := by
        cases task <;> exact isOther
      rw [List.mem_append, List.mem_singleton] at appended
      exact appended
    · exact Or.inl isOther
  rw [observe, report] at member
  split at member
  · split at member
    · have appended :
          subtraction ∈
            (log.estimate task transferred now).subtractions ++
              [SpeedMeter.missing task transferred total] := by
        cases task <;> exact member
      rw [List.mem_append, List.mem_singleton] at appended
      obtain earlier | isMissing := appended
      · obtain before | isEstimate := estimated subtraction earlier
        · exact Or.inl before
        · exact Or.inr (Or.inl isEstimate)
      · exact Or.inr (Or.inr isMissing)
    · have same :
          subtraction ∈
            (log.estimate task transferred now).subtractions := by
        cases task <;> exact member
      obtain before | isEstimate := estimated subtraction same
      · exact Or.inl before
      · exact Or.inr (Or.inl isEstimate)
  · obtain before | isEstimate := estimated subtraction member
    · exact Or.inl before
    · exact Or.inr (Or.inl isEstimate)

/-- The estimate is never ahead of the transfer. -/
theorem lastSpeedBytes_observe
    (behind : (log.meter task).lastSpeedBytes ≤ transferred) :
    ((log.observe task transferred total now).meter task).lastSpeedBytes ≤
      transferred := by
  have estimated :
      ((log.estimate task transferred now).meter task).lastSpeedBytes ≤
        transferred := by
    rw [estimate]
    split
    · rename_i due
      have same :
          (((log.subtract
                ((log.meter task).sinceEstimate task
                  transferred)).withMeter task
              ((log.meter task).estimate task transferred now)).meter
            task) = (log.meter task).estimate task transferred now := by
        cases task <;> rfl
      rw [same, SpeedMeter.estimate, if_pos due]
    · exact behind
  rw [observe, report]
  split
  · split <;> cases task <;> exact estimated
  · exact estimated

theorem mem_finish
    {offset : Nat} {subtraction : Subtraction}
    (member :
      subtraction ∈
        (log.finish task transferred total offset now).subtractions) :
    subtraction ∈ log.subtractions ∨
      subtraction = SpeedMeter.sinceStart task transferred offset := by
  rw [finish] at member
  split at member
  · have appended :
        subtraction ∈
          log.subtractions ++
            [SpeedMeter.sinceStart task transferred offset] :=
      member
    rw [List.mem_append, List.mem_singleton] at appended
    exact appended
  · exact Or.inl member

end ProgressLog

end Quiczilla
