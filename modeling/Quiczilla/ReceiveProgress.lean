import Quiczilla.ControlMessages
import Quiczilla.ReceiveJobs
import Quiczilla.TransferProgress

/-!
# The arithmetic of the receive side

Offsets are computed from the lengths of local files and parked until the other
peer answers.  Against any other peer, with anyone changing the files, no job
starts past its own end, the loop takes no more than the rest of the file from
the stream, and its subtractions are differences.
-/

namespace Quiczilla

open Foundation

/-! ## Control-stream strings -/

/-- A step of a peer that reads its control messages as strings.  `offer` is
the offer that the other peer means. -/
inductive TextLabel where
  | text (line : String) (offer : Nat) (faults : Faults)
  | timed (label : TimedLabel)

/-- A ping is skipped, and so is what `parse` does not know. -/
def textStep (json : SerdeJson) (watched : Peer × ProgressLog) :
    TextLabel → Option (Peer × ProgressLog)
  | .text line offer faults =>
      if watched.1.mainEnded then none
      else if line = "" then some watched
      else
        match ControlMessage.parse json line with
        | some message =>
            timedStep watched
              ⟨.peer (.control ⟨message, offer⟩ faults), fun _ => 0, 0⟩
        | none => some watched
  | .timed label => timedStep watched label

theorem textStep_timed
    {json : SerdeJson} {watched next : Peer × ProgressLog}
    {label : TextLabel} (stepped : textStep json watched label = some next) :
    next = watched ∨ ∃ timed, timedStep watched timed = some next := by
  cases label with
  | text line offer faults =>
      simp only [textStep] at stepped
      split at stepped
      · cases stepped
      · split at stepped
        · exact Or.inl (Option.some.inj stepped).symm
        · split at stepped
          · exact Or.inr ⟨_, stepped⟩
          · exact Or.inl (Option.some.inj stepped).symm
  | timed label => exact Or.inr ⟨label, stepped⟩

/-! ## The calls of `unwrap` -/

/-- The `Metadata` branch with both calls of `take().unwrap()`; `none` is a
panic. -/
def Peer.metadataBranch
    (peer : Peer) (name : String) (size : Nat) (resume checksum : Bool)
    (offer : Nat) (faults : Faults) : Option Peer :=
  let offered := peer.recordOffer name size resume checksum offer
  match offered.coordinator.pendingAccept with
  | some accept =>
      let accepting := offered.setPendingAccept none
      match accepting.coordinator.offeredFileName,
          accepting.coordinator.offeredFileSize with
      | some takenName, some takenSize =>
          some
            (accepting.clearOffer.handleAccept accept takenName takenSize
              faults)
      | _, _ => none
  | none => some offered

/-- The branch has just stored what it takes. -/
theorem metadataBranch_eq
    (peer : Peer) (name : String) (size : Nat) (resume checksum : Bool)
    (offer : Nat) (faults : Faults) :
    peer.metadataBranch name size resume checksum offer faults =
      some
        (peer.handleMetadata name size resume checksum offer faults) := by
  have sameAccept :
      (peer.recordOffer name size resume checksum
          offer).coordinator.pendingAccept =
        peer.coordinator.pendingAccept := by
    simp only [Peer.recordOffer, Peer.emit]
  rw [Peer.metadataBranch, Peer.handleMetadata]
  simp only [sameAccept]
  cases peer.coordinator.pendingAccept with
  | none => simp only
  | some accept =>
      simp only [Peer.recordOffer, Peer.emit, Peer.setPendingAccept]

/-! ## Jobs -/

/-- The job starts within its file. -/
def RecvJob.Bounded (job : RecvJob) : Prop :=
  job.resumeOffset ≤ job.fileSize

theorem bounded_stable : StableUnderRestart RecvJob.Bounded :=
  fun job _ => Nat.zero_le job.fileSize

theorem leadsWithin_bounded (applied : AppliedAccept) :
    applied.LeadsWithin RecvJob.Bounded :=
  fun _ _ _ within _ => within

theorem sourceStep_bounded
    {peer next : Peer} {label : SourceLabel}
    (jobs : peer.recvSide.Jobs RecvJob.Bounded)
    (stepped : sourceStep peer label = some next) :
    next.recvSide.Jobs RecvJob.Bounded := by
  cases label with
  | change files =>
      cases stepped
      exact ⟨jobs.resuming, jobs.queued, jobs.active⟩
  | peer peerLabel =>
      exact
        peerStep_jobs jobs bounded_stable
          (fun applied _ => leadsWithin_bounded applied) stepped

/-! ## The loop -/

/-- What the loop has counted, while it runs and behind it. -/
structure ProgressLog.Counts (log : ProgressLog) (job : RecvJob) :
    Prop where
  offset : job.resumeOffset ≤ log.totalReceived
  bounded : log.totalReceived ≤ job.fileSize
  estimated : log.recvMeter.lastSpeedBytes ≤ log.totalReceived
  consumed : job.resumeOffset + log.consumed ≤ job.fileSize

/-- The counts agree with the state of the loop. -/
structure Receiving.Metered (receiving : Receiving) (log : ProgressLog) :
    Prop where
  counts : log.Counts receiving.job
  total : log.totalReceived = receiving.totalReceived
  consumed :
    receiving.loopEnd = none →
      receiving.job.resumeOffset + log.consumed = receiving.totalReceived

def RecvPhase.Metered (log : ProgressLog) : RecvPhase → Prop
  | .receiving current => current.Metered log
  | .verifying current => log.Counts current.job
  | _ => True

/-- None of the subtractions of the receive task has underflown. -/
def ReceiveSubtracts (log : ProgressLog) : Prop :=
  ∀ subtraction ∈ log.subtractions, subtraction.task = .receive →
    ¬ subtraction.Underflows

structure RecvMeasured (peer : Peer) (log : ProgressLog) : Prop where
  jobs : peer.recvSide.Jobs RecvJob.Bounded
  phase : peer.receiver.Metered log
  entries : ReceiveSubtracts log

/-! ### What the notes leave alone -/

namespace ProgressLog

/-- What the receive loop counts. -/
def tallies (log : ProgressLog) : Nat × Nat :=
  (log.totalReceived, log.consumed)

@[simp]
theorem tallies_withMeter
    (log : ProgressLog) (task : TransferTask) (meter : SpeedMeter) :
    (log.withMeter task meter).tallies = log.tallies := by
  cases task <;> rfl

@[simp]
theorem tallies_observe
    (log : ProgressLog) (task : TransferTask)
    (transferred total now : Nat) :
    (log.observe task transferred total now).tallies = log.tallies := by
  have estimated :
      (log.estimate task transferred now).tallies = log.tallies := by
    rw [estimate]
    split
    · rw [tallies_withMeter]
      rfl
    · rfl
  rw [observe, report]
  split
  · rw [tallies_withMeter]
    split <;> exact estimated
  · exact estimated

theorem tallies_finish
    (log : ProgressLog) (task : TransferTask)
    (transferred total offset now : Nat) :
    (log.finish task transferred total offset now).tallies =
      log.tallies := by
  rw [finish]
  split <;> rfl

theorem tallies_noteSend
    (log : ProgressLog) (sender : SendPhase) (label : SendLabel)
    (instants : Nat → Nat) :
    (log.noteSend sender label instants).tallies = log.tallies := by
  rw [noteSend.eq_def]
  split
  · simp
  · split
    · simp
    · rfl
  · split
    · exact tallies_finish _ _ _ _ _ _
    · rfl
  · rfl

/-- The next read is limited to the rest of the file. -/
theorem toRead_le
    {receiving : Receiving}
    (bounded : receiving.totalReceived ≤ receiving.job.fileSize) :
    toRead receiving ≤
      receiving.job.fileSize - receiving.totalReceived := by
  have isRest :
      receiving.job.fileSize + 2 ^ 64 - receiving.totalReceived =
        receiving.job.fileSize - receiving.totalReceived + 2 ^ 64 := by
    omega
  calc
    toRead receiving ≤ (readable receiving).wrapped :=
      Nat.min_le_left _ _
    _ = (receiving.job.fileSize - receiving.totalReceived) % 2 ^ 64 := by
      simp only [Subtraction.wrapped, readable, isRest, Nat.add_mod_right]
    _ ≤ receiving.job.fileSize - receiving.totalReceived :=
      Nat.mod_le _ _

theorem Counts.congr
    {log later : ProgressLog} {job : RecvJob} (counts : log.Counts job)
    (sameTallies : later.tallies = log.tallies)
    (sameMeter : later.recvMeter = log.recvMeter) :
    later.Counts job := by
  obtain ⟨sameTotal, sameConsumed⟩ := Prod.mk.inj sameTallies
  constructor
  · rw [sameTotal]
    exact counts.offset
  · rw [sameTotal]
    exact counts.bounded
  · rw [sameTotal, sameMeter]
    exact counts.estimated
  · rw [sameConsumed]
    exact counts.consumed

end ProgressLog

theorem Receiving.Metered.congr
    {receiving : Receiving} {log later : ProgressLog}
    (metered : receiving.Metered log)
    (sameTallies : later.tallies = log.tallies)
    (sameMeter : later.recvMeter = log.recvMeter) :
    receiving.Metered later := by
  obtain ⟨sameTotal, sameConsumed⟩ := Prod.mk.inj sameTallies
  constructor
  · exact metered.counts.congr sameTallies sameMeter
  · rw [sameTotal]
    exact metered.total
  · rw [sameConsumed]
    exact metered.consumed

theorem RecvPhase.Metered.congr
    {receiver : RecvPhase} {log later : ProgressLog}
    (metered : receiver.Metered log)
    (sameTallies : later.tallies = log.tallies)
    (sameMeter : later.recvMeter = log.recvMeter) :
    receiver.Metered later := by
  cases receiver with
  | idle => trivial
  | opening job => trivial
  | receiving current =>
      exact Receiving.Metered.congr metered sameTallies sameMeter
  | verifying current =>
      exact ProgressLog.Counts.congr metered sameTallies sameMeter
  | stopped => trivial

/-! ### Steps of the receive task -/

section Steps

variable {peer next : Peer} {log : ProgressLog}

theorem counts_begin
    {job : RecvJob} (bounded : job.Bounded) (instants : Nat → Nat)
    (lost : Nat) :
    job.begin.Metered
      (log.noteReceive (.opening job) (.openTarget .opened) instants
        lost) where
  counts :=
    { offset := le_rfl
      bounded := bounded
      estimated := le_rfl
      consumed := bounded }
  total := rfl
  consumed := fun _ => rfl

theorem recvMeasured_receive
    {receiving : Receiving} {chunk : List UInt8}
    (metered : receiving.Metered log) (subtracts : ReceiveSubtracts log)
    (running : receiving.loopEnd = none)
    (bounded :
      chunk.length ≤
        receiving.job.fileSize - receiving.totalReceived)
    (instants : Nat → Nat) (lost : Nat) (loopEnd : Option Bool) :
    Receiving.Metered
        { receiving with
          totalReceived := receiving.totalReceived + chunk.length
          chunks := receiving.chunks ++ [chunk]
          loopEnd := loopEnd }
        (log.noteReceive (.receiving receiving) (.receive chunk) instants
          lost) ∧
      ReceiveSubtracts
        (log.noteReceive (.receiving receiving) (.receive chunk) instants
          lost) := by
  have total := metered.total
  have counts := metered.counts
  have consumed := metered.consumed running
  have offset := counts.offset
  have inFile := counts.bounded
  have behind := counts.estimated
  rw [total] at offset inFile behind
  rw [ProgressLog.noteReceive]
  generalize taken :
    ({ log.subtract (ProgressLog.readable receiving) with
        totalReceived := receiving.totalReceived + chunk.length
        consumed := log.consumed + chunk.length } : ProgressLog) = middle
  have isMeter : middle.meter .receive = log.recvMeter := by
    rw [← taken]
    rfl
  have estimated :
      (middle.meter .receive).lastSpeedBytes ≤
        receiving.totalReceived + chunk.length := by
    rw [isMeter]
    exact Nat.le_add_right_of_le behind
  have same :=
    ProgressLog.tallies_observe middle .receive
      (receiving.totalReceived + chunk.length) receiving.job.fileSize
      (instants 0)
  obtain ⟨sameTotal, sameConsumed⟩ := Prod.mk.inj same
  have isTotal :
      middle.totalReceived = receiving.totalReceived + chunk.length := by
    rw [← taken]
  have isConsumed : middle.consumed = log.consumed + chunk.length := by
    rw [← taken]
  constructor
  · constructor
    · constructor
      · simp only [sameTotal, isTotal]
        omega
      · simp only [sameTotal, isTotal]
        omega
      · rw [sameTotal, isTotal]
        exact ProgressLog.lastSpeedBytes_observe estimated
      · simp only [sameConsumed, isConsumed]
        omega
    · rw [sameTotal, isTotal]
    · intro _
      simp only [sameConsumed, isConsumed]
      omega
  · intro subtraction member isReceive
    obtain earlier | rfl | rfl := ProgressLog.mem_observe member
    · rw [← taken] at earlier
      obtain before | new := List.mem_append.mp earlier
      · exact subtracts subtraction before isReceive
      · rw [List.mem_singleton.mp new]
        exact Nat.not_lt.mpr inFile
    · exact Nat.not_lt.mpr estimated
    · refine Nat.not_lt.mpr ?_
      change receiving.totalReceived + chunk.length ≤
        receiving.job.fileSize
      omega

/-- The bytes of a read whose chunk finds no writer are taken, too. -/
theorem recvMeasured_receiveFails
    {receiving : Receiving}
    (metered : receiving.Metered log) (subtracts : ReceiveSubtracts log)
    (running : receiving.loopEnd = none)
    (instants : Nat → Nat) (lost : Nat) :
    Receiving.Metered { receiving with loopEnd := some false }
        (log.noteReceive (.receiving receiving) .receiveFails instants
          lost) ∧
      ReceiveSubtracts
        (log.noteReceive (.receiving receiving) .receiveFails instants
          lost) := by
  have total := metered.total
  have counts := metered.counts
  have consumed := metered.consumed running
  have inFile := counts.bounded
  rw [total] at inFile
  rw [ProgressLog.noteReceive]
  constructor
  · constructor
    · refine ⟨counts.offset, counts.bounded, counts.estimated, ?_⟩
      have limited : min lost (ProgressLog.toRead receiving) ≤
          receiving.job.fileSize - receiving.totalReceived :=
        (Nat.min_le_right _ _).trans (ProgressLog.toRead_le inFile)
      change
        receiving.job.resumeOffset +
            (log.consumed + min lost (ProgressLog.toRead receiving)) ≤
          receiving.job.fileSize
      omega
    · exact total
    · intro isNone
      cases isNone
  · intro subtraction member isReceive
    obtain before | new := List.mem_append.mp member
    · exact subtracts subtraction before isReceive
    · rw [List.mem_singleton.mp new]
      exact Nat.not_lt.mpr inFile

theorem recvMeasured_verify
    {verifying : Verifying}
    (counts : log.Counts verifying.job)
    (subtracts : ReceiveSubtracts log) (renameFails : Bool)
    (instants : Nat → Nat) (lost : Nat) :
    ReceiveSubtracts
      (log.noteReceive (.verifying verifying) (.verify renameFails)
        instants lost) := by
  intro subtraction member isReceive
  obtain earlier | rfl := ProgressLog.mem_finish member
  · exact subtracts subtraction earlier isReceive
  · exact Nat.not_lt.mpr counts.offset

theorem recvPhase_receiving
    {receiving : Receiving} {label : RecvLabel}
    (metered : receiving.Metered log) (subtracts : ReceiveSubtracts log)
    (isReceiving : peer.receiver = .receiving receiving)
    (instants : Nat → Nat) (lost : Nat)
    (stepped : peer.recvStep label = some next) :
    next.receiver.Metered
        (log.noteReceive (.receiving receiving) label instants lost) ∧
      ReceiveSubtracts
        (log.noteReceive (.receiving receiving) label instants lost) := by
  unfold Peer.recvStep at stepped
  rw [isReceiving] at stepped
  cases label with
  | start => cases stepped
  | openTarget outcome => cases stepped
  | receive chunk =>
      simp only [Peer.receive] at stepped
      split at stepped <;> cases stepped
      rename_i taken
      obtain ⟨running, -, -, -, bounded, -⟩ := taken
      exact
        recvMeasured_receive metered subtracts running
          (bounded.trans (Nat.min_le_left _ _)) instants lost _
  | receiveFails =>
      simp only [Peer.receiveFails] at stepped
      split at stepped <;> cases stepped
      rename_i runs
      exact
        recvMeasured_receiveFails metered subtracts runs.1 instants lost
  | endReceive =>
      simp only [Peer.endReceive] at stepped
      split at stepped <;> cases stepped
      refine ⟨⟨metered.counts, metered.total, ?_⟩, subtracts⟩
      intro isNone
      cases isNone
  | writeChunk =>
      simp only [Peer.storeChunk] at stepped
      split at stepped <;> cases stepped
      exact
        ⟨⟨metered.counts, metered.total, metered.consumed⟩, subtracts⟩
  | writeFails length =>
      simp only [Peer.storeFails] at stepped
      split at stepped
      · split at stepped <;> cases stepped
        exact
          ⟨⟨metered.counts, metered.total, metered.consumed⟩, subtracts⟩
      · cases stepped
  | report =>
      cases stepped
      refine ⟨?_, subtracts⟩
      simp only [Peer.emit, isReceiving]
      exact metered
  | closeFile flushFails rehashFails =>
      simp only [Peer.closeFile] at stepped
      split at stepped
      · cases stepped
      · split at stepped
        · cases stepped
          exact ⟨trivial, subtracts⟩
        · split at stepped
          · cases stepped
          · split at stepped <;> cases stepped
            · exact ⟨trivial, subtracts⟩
            · exact ⟨metered.counts, subtracts⟩
  | verify renameFails => cases stepped
  | hashClosed => cases stepped

theorem verify_receiver
    {verifying : Verifying} {renameFails : Bool}
    (stepped : peer.verify verifying renameFails = some next) :
    next.receiver = .idle ∨ next.receiver = .stopped := by
  unfold Peer.verify at stepped
  split at stepped
  · simp only at stepped
    split at stepped
    · split at stepped <;> cases stepped
      · exact Or.inl rfl
      · exact Or.inr rfl
    · cases stepped
      exact Or.inr rfl
  · cases stepped

theorem openTarget_receiver
    {job : RecvJob} {outcome : OpenTarget}
    (stepped : peer.openTarget job outcome = some next) :
    (outcome = .opened ∧ next.receiver = .receiving job.begin) ∨
      (outcome ≠ .opened ∧ next.receiver = .stopped) := by
  unfold Peer.openTarget at stepped
  split at stepped
  · cases stepped
    exact Or.inr ⟨by simp, rfl⟩
  · cases stepped
    exact Or.inr ⟨by simp, rfl⟩
  · split at stepped
    · obtain ⟨opened, -, rfl⟩ := Option.map_eq_some_iff.mp stepped
      exact Or.inr ⟨by simp, rfl⟩
    · cases stepped
  · obtain ⟨opened, -, rfl⟩ := Option.map_eq_some_iff.mp stepped
    exact Or.inl ⟨rfl, rfl⟩
  · cases stepped

/-- The receive task takes the step. -/
theorem recvMeasured_recv
    {label : RecvLabel} (holds : RecvMeasured peer log)
    (instants : Nat → Nat) (lost : Nat)
    (stepped : peer.recvStep label = some next) :
    RecvMeasured next
      (log.noteReceive peer.receiver label instants lost) := by
  have active := holds.jobs.active
  have metered := holds.phase
  suffices noted :
      next.receiver.Metered
          (log.noteReceive peer.receiver label instants lost) ∧
        ReceiveSubtracts
          (log.noteReceive peer.receiver label instants lost) by
    exact
      ⟨taskEffect_jobs holds.jobs (recvStep_effect stepped), noted.1,
        noted.2⟩
  change peer.receiver.Holds RecvJob.Bounded at active
  cases phase : peer.receiver with
  | idle =>
      unfold Peer.recvStep at stepped
      rw [phase] at stepped
      cases label <;> simp only at stepped <;> try cases stepped
      split at stepped <;> cases stepped
      exact ⟨trivial, holds.entries⟩
  | opening job =>
      rw [phase] at active
      unfold Peer.recvStep at stepped
      rw [phase] at stepped
      cases label <;> simp only at stepped <;> try cases stepped
      rename_i outcome
      obtain ⟨rfl, isReceiving⟩ | ⟨notOpened, isStopped⟩ :=
        openTarget_receiver stepped
      · rw [isReceiving]
        exact ⟨counts_begin active instants lost, holds.entries⟩
      · rw [isStopped]
        refine ⟨trivial, ?_⟩
        cases outcome with
        | opened => exact absurd rfl notOpened
        | parentFailed => exact holds.entries
        | failed => exact holds.entries
        | seekFailed => exact holds.entries
  | receiving current =>
      rw [phase] at metered
      exact
        recvPhase_receiving metered holds.entries phase instants lost
          stepped
  | verifying current =>
      rw [phase] at metered
      unfold Peer.recvStep at stepped
      rw [phase] at stepped
      cases label <;> simp only at stepped <;> try cases stepped
      · refine
          ⟨?_, recvMeasured_verify metered holds.entries _ instants lost⟩
        obtain isIdle | isStopped := verify_receiver stepped
        · rw [isIdle]
          trivial
        · rw [isStopped]
          trivial
      · split at stepped <;> cases stepped
        exact ⟨trivial, holds.entries⟩
  | stopped =>
      unfold Peer.recvStep at stepped
      rw [phase] at stepped
      cases label <;> cases stepped

/-- A step beside the receive task. -/
theorem RecvMeasured.beside
    {later : ProgressLog} (holds : RecvMeasured peer log)
    (jobs : next.recvSide.Jobs RecvJob.Bounded)
    (sameReceiver : next.receiver = peer.receiver)
    (sameTallies : later.tallies = log.tallies)
    (extended : log.Extends .send later) : RecvMeasured next later where
  jobs := jobs
  phase := by
    rw [sameReceiver]
    exact
      holds.phase.congr sameTallies
        (extended.others .receive (by decide))
  entries := by
    intro subtraction member isReceive
    obtain earlier | isSend := extended.entries subtraction member
    · exact holds.entries subtraction earlier isReceive
    · rw [isReceive] at isSend
      cases isSend

theorem LoopEffect.receiver_eq
    {label : PeerLabel} {side : RecvSide}
    (effect : LoopEffect peer label side) :
    side.receiver = peer.receiver := by
  cases effect with
  | quiet noAccept => rfl
  | accepted applied faults side isApplied hasFaults effect =>
      cases effect <;> rfl
  | resumed job noAccept isMessage waiting => rfl
  | restarted job noAccept isMessage waiting => rfl
  | recreated job partPath created noAccept isMessage waiting current
      created => rfl

theorem receiver_beside
    {label : SourceLabel}
    (notRecv : ∀ recvLabel, label ≠ .peer (.recv recvLabel))
    (stepped : sourceStep peer label = some next) :
    next.receiver = peer.receiver := by
  cases label with
  | change files =>
      cases stepped
      rfl
  | peer peerLabel =>
      obtain effect | ⟨recvLabel, isRecv, -⟩ := peerStep_effect stepped
      · exact effect.receiver_eq
      · exact absurd (by rw [isRecv]) (notRecv recvLabel)

end Steps

/-! ## Runs -/

theorem recvMeasured_initial (files : Files) :
    RecvMeasured (.initial files) .initial where
  jobs := initial_jobs files
  phase := trivial
  entries := fun _ member => by cases member

theorem recvMeasured_step
    {watched next : Peer × ProgressLog} {label : TimedLabel}
    (holds : RecvMeasured watched.1 watched.2)
    (stepped : timedStep watched label = some next) :
    RecvMeasured next.1 next.2 := by
  obtain ⟨moved, isNoted⟩ := withHistory_eq_some.mp stepped
  rw [isNoted]
  have jobs := sourceStep_bounded holds.jobs moved
  have quiet
      (notRecv : ∀ recvLabel, label.source ≠ .peer (.recv recvLabel)) :
      RecvMeasured next.1 watched.2 :=
    holds.beside jobs (receiver_beside notRecv moved) rfl
      (ProgressLog.Extends.refl .send watched.2)
  cases source : label.source with
  | change files =>
      rw [noteProgress, source]
      exact quiet (by simp [source])
  | peer peerLabel =>
      cases peerLabel with
      | send sendLabel =>
          rw [noteProgress, source]
          exact
            holds.beside jobs
              (receiver_beside (by simp [source]) moved)
              (ProgressLog.tallies_noteSend watched.2 _ sendLabel _)
              (ProgressLog.extends_noteSend watched.2 _ sendLabel _)
      | recv recvLabel =>
          rw [source] at moved
          rw [noteProgress, source]
          exact
            recvMeasured_recv holds label.instants label.lost moved
      | control letter faults =>
          rw [noteProgress, source]
          exact quiet (by simp [source])
      | command command faults =>
          rw [noteProgress, source]
          exact quiet (by simp [source])
      | loopEnds reason =>
          rw [noteProgress, source]
          exact quiet (by simp [source])

/-- What a receive side may rely on, whoever the other peer is. -/
structure ReceiveSafe (peer : Peer) (log : ProgressLog) : Prop where
  resuming :
    ∀ job, peer.coordinator.pendingResumeRecv = some job →
      job.resumeOffset ≤ job.fileSize
  queued : ∀ job ∈ peer.recvQueue, job.resumeOffset ≤ job.fileSize
  opening :
    ∀ job, peer.receiver = .opening job →
      job.resumeOffset ≤ job.fileSize
  received :
    ∀ receiving, peer.receiver = .receiving receiving →
      receiving.totalReceived ≤ receiving.job.fileSize ∧
        log.consumed ≤
          receiving.job.fileSize - receiving.job.resumeOffset
  verifying :
    ∀ verifying, peer.receiver = .verifying verifying →
      log.totalReceived ≤ verifying.job.fileSize ∧
        log.consumed ≤
          verifying.job.fileSize - verifying.job.resumeOffset
  subtracts :
    ∀ subtraction ∈ log.subtractions, subtraction.task = .receive →
      ¬ subtraction.Underflows
  unwraps :
    ∀ name size resume checksum offer faults,
      peer.metadataBranch name size resume checksum offer faults ≠ none

theorem RecvMeasured.receiveSafe
    {peer : Peer} {log : ProgressLog} (holds : RecvMeasured peer log) :
    ReceiveSafe peer log where
  resuming := holds.jobs.resuming
  queued := holds.jobs.queued
  opening := by
    intro job isOpening
    have active : peer.receiver.Holds RecvJob.Bounded := holds.jobs.active
    rw [isOpening] at active
    exact active
  received := by
    intro receiving isReceiving
    have metered := holds.phase
    rw [isReceiving] at metered
    have counts := metered.counts
    rw [← metered.total]
    exact ⟨counts.bounded, Nat.le_sub_of_add_le' counts.consumed⟩
  verifying := by
    intro verifying isVerifying
    have counts := holds.phase
    rw [isVerifying] at counts
    exact ⟨counts.bounded, Nat.le_sub_of_add_le' counts.consumed⟩
  subtracts := holds.entries
  unwraps := by
    intro name size resume checksum offer faults
    rw [metadataBranch_eq]
    simp

/-- Against any other peer, with any local files and any commands. -/
theorem receive_side_safe
    {json : SerdeJson} {files : Files} {labels : List TextLabel}
    {watched : Peer × ProgressLog}
    (run :
      Run (textStep json) anyStep (.initial files, .initial) labels
        watched) :
    ReceiveSafe watched.1 watched.2 := by
  apply RecvMeasured.receiveSafe
  refine
    run.preserves (fun watched => RecvMeasured watched.1 watched.2) ?_
      (recvMeasured_initial files)
  intro source label target holds _ stepped
  obtain rfl | ⟨timed, isStep⟩ := textStep_timed stepped
  · exact holds
  · exact recvMeasured_step holds isStep

/-- A file of three bytes is accepted in advance, offered behind a ping and
received in two chunks, two seconds apart. -/
def timedReceive : List TextLabel :=
  [.timed
      ⟨.peer (.command (.acceptFile "in" false false) .none),
        fun _ => 0, 0⟩,
    .text "" 0 .none,
    .text ((ControlMessage.metadata "a" 3 false false).serialize .compact) 0
      .none,
    .timed ⟨.peer (.recv .start), fun _ => 0, 0⟩,
    .timed ⟨.peer (.recv (.openTarget .opened)), fun _ => 0, 0⟩,
    .timed ⟨.peer (.recv (.receive [1, 2])), fun _ => 2000000000, 0⟩,
    .timed ⟨.peer (.recv (.receive [3])), fun _ => 4000000000, 0⟩,
    .timed ⟨.peer (.recv .endReceive), fun _ => 0, 0⟩,
    .timed ⟨.peer (.recv .writeChunk), fun _ => 0, 0⟩,
    .timed ⟨.peer (.recv .writeChunk), fun _ => 0, 0⟩,
    .timed ⟨.peer (.recv (.closeFile false false)), fun _ => 0, 0⟩,
    .text "FILE_SENT:NONE" 0 .none,
    .timed ⟨.peer (.recv (.verify false)), fun _ => 5000000000, 0⟩]

theorem receive_side_safe_three_bytes :
    ∃ watched,
      Run (textStep .compact) anyStep
          (.initial (fun _ => none), .initial) timedReceive watched ∧
        watched.2.totalReceived = 3 ∧ watched.2.consumed = 3 ∧
          watched.2.subtractions.length = 7 ∧
            ReceiveSafe watched.1 watched.2 := by
  have ran :
      (replay (textStep .compact)
          (.initial (fun _ => none), .initial) timedReceive).map
          (fun watched =>
            (watched.2.totalReceived, watched.2.consumed,
              watched.2.subtractions.length)) =
        some (3, 3, 7) := by
    decide +kernel
  obtain ⟨watched, reached, same⟩ := Option.map_eq_some_iff.mp ran
  injection same with isTotal same
  injection same with isConsumed isLength
  have run := run_of_replay reached
  exact
    ⟨watched, run, isTotal, isConsumed, isLength, receive_side_safe run⟩

end Quiczilla
