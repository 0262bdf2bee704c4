import Quiczilla.ReceiveJobs
import Quiczilla.ReceivePaths

/-!
# One receive at a time

What a receive leaves on disk while no other receive is unfinished: the bytes
it kept, followed by the bytes it stored, and never more than was announced.
-/

namespace Quiczilla

open Foundation

/-! ## Contents on disk -/

/-- The file starts with the kept and the stored bytes, and is no longer than
announced. -/
structure OnDisk
    (content kept stored : List UInt8) (size : Nat) : Prop where
  written :
    content.take (kept.length + stored.length) = kept ++ stored
  bounded : content.length ≤ size

section

variable {content kept stored : List UInt8} {size : Nat}

theorem OnDisk.reached (onDisk : OnDisk content kept stored size) :
    kept.length + stored.length ≤ content.length := by
  have lengths := congrArg List.length onDisk.written
  rw [List.length_take, List.length_append] at lengths
  omega

theorem OnDisk.write
    (onDisk : OnDisk content kept stored size) {bytes : List UInt8}
    (fits : kept.length + stored.length + bytes.length ≤ size) :
    OnDisk
      (overwritten content (kept.length + stored.length) bytes) kept
      (stored ++ bytes) size where
  written := by
    rw [List.length_append, ← Nat.add_assoc,
      take_overwritten bytes onDisk.reached, onDisk.written,
      List.append_assoc]
  bounded := length_overwritten_le onDisk.reached onDisk.bounded fits

/-- Bytes that are not accounted for do no harm. -/
theorem OnDisk.forget
    {more : List UInt8}
    (onDisk : OnDisk content kept (stored ++ more) size) :
    OnDisk content kept stored size where
  written := by
    have longer := onDisk.written
    rw [← List.append_assoc] at longer
    have cut := congrArg (List.take (kept.length + stored.length)) longer
    rw [List.take_take, List.length_append] at cut
    rw [Nat.min_eq_left (by omega)] at cut
    rw [cut, ← List.length_append, List.take_left]
  bounded := onDisk.bounded

theorem OnDisk.complete
    (onDisk : OnDisk content kept stored size)
    (all : kept.length + stored.length = size) :
    content = kept ++ stored := by
  rw [← onDisk.written]
  refine (List.take_of_length_le ?_).symm
  rw [all]
  exact onDisk.bounded

theorem OnDisk.empty (size : Nat) : OnDisk [] [] [] size :=
  ⟨rfl, Nat.zero_le size⟩

end

/-! ## Unfinished receives -/

def RecvPhase.job? : RecvPhase → Option RecvJob
  | .idle => none
  | .opening job => some job
  | .receiving current => some current.job
  | .verifying current => some current.job
  | .stopped => none

/-- The jobs that have been accepted and have not ended. -/
def RecvSide.unfinished (side : RecvSide) : List RecvJob :=
  side.pendingResumeRecv.toList ++ side.recvQueue ++
    side.receiver.job?.toList

theorem RecvPhase.Holds.of_job?
    {condition : RecvJob → Prop} {phase : RecvPhase} {job : RecvJob}
    (holds : phase.Holds condition) (isJob : phase.job? = some job) :
    condition job := by
  cases phase with
  | opening other => exact Option.some.inj isJob ▸ holds
  | receiving current => exact Option.some.inj isJob ▸ holds.1
  | verifying current => exact Option.some.inj isJob ▸ holds.1
  | _ => cases isJob

/-- What holds of everything unfinished holds of the jobs. -/
theorem RecvSide.Jobs.of_unfinished
    {condition : RecvJob → Prop} {side : RecvSide}
    (jobs : side.Jobs fun _ => True)
    (holds : ∀ job ∈ side.unfinished, condition job) :
    side.Jobs condition := by
  have holds' : ∀ job, job ∈ side.pendingResumeRecv.toList ∨
      job ∈ side.recvQueue ∨ job ∈ side.receiver.job?.toList →
        condition job := by
    intro job member
    apply holds
    simpa [RecvSide.unfinished, or_assoc] using member
  refine ⟨?_, ?_, ?_⟩
  · exact fun job waiting =>
      holds' job (Or.inl (Option.mem_toList.mpr waiting))
  · exact fun job member => holds' job (Or.inr (Or.inl member))
  · have active := jobs.active
    cases phase : side.receiver with
    | idle => trivial
    | stopped => trivial
    | opening job =>
        rw [phase] at holds'
        exact holds' job (Or.inr (Or.inr List.mem_cons_self))
    | receiving current =>
        rw [phase] at holds' active
        exact
          ⟨holds' _ (Or.inr (Or.inr List.mem_cons_self)), active.2⟩
    | verifying current =>
        rw [phase] at holds' active
        exact
          ⟨holds' _ (Or.inr (Or.inr List.mem_cons_self)), active.2⟩

/-- The job is for the accept. -/
structure AppliedAccept.Accepts
    (applied : AppliedAccept) (job : RecvJob) : Prop where
  destPath : job.destPath = applied.destPath
  fileSize : job.fileSize = applied.size
  checksum : job.checksum = applied.accept.checksum
  offset : job.resumeOffset ≤ applied.size

/-- What a job keeps of its target as it was before the accept. -/
def RecvJob.kept (job : RecvJob) (before : Files) : List UInt8 :=
  ((before.content? job.targetWritePath).getD []).take job.resumeOffset

/-- A target that is kept is still there, unless it cannot be opened. -/
def RecvJob.Grounded
    (job : RecvJob) (before files : Files) : Prop :=
  0 < job.resumeOffset →
    (∃ content,
        files job.targetWritePath = some (.file content) ∧
          (job.kept before).length = job.resumeOffset ∧
            OnDisk content (job.kept before) [] job.fileSize) ∨
      ∃ length, files job.targetWritePath = some (.directory length)

/-- The bytes taken from the stream are stored or wait for the writer. -/
structure Receiving.Accounted (current : Receiving) : Prop where
  total :
    current.totalReceived =
      current.job.resumeOffset + current.stored.length +
        current.chunks.flatten.length
  bounded : current.totalReceived ≤ current.job.fileSize
  all :
    current.loopEnd = some true →
      current.totalReceived = current.job.fileSize
  nonempty : ∀ chunk ∈ current.chunks, chunk ≠ []

/-- The open file of a receive. -/
structure Receiving.Written
    (current : Receiving) (before files : Files) : Prop where
  accounted : current.Accounted
  kept :
    (current.job.kept before).length = current.job.resumeOffset
  onDisk :
    ∃ content,
      files current.targetWritePath = some (.file content) ∧
        OnDisk content (current.job.kept before) current.stored
          current.job.fileSize

/-- The whole content of a file that has been received. -/
structure Verifying.Holds
    (current : Verifying) (before : Files) (content : List UInt8) :
    Prop where
  whole : content = current.job.kept before ++ current.stored
  kept :
    (current.job.kept before).length = current.job.resumeOffset
  size : content.length = current.job.fileSize
  hashed : current.job.checksum = true → current.content = content

/-- The accepted receive has been completed: its destination holds the whole
content. -/
def RecvSide.Done
    (before : Files) (applied : AppliedAccept)
    (earlier : List Receipt) (side : RecvSide) : Prop :=
  ∃ receipt content,
    side.receipts = earlier ++ [receipt] ∧
      applied.Accepts receipt.verified.job ∧
        side.files applied.destPath = some (.file content) ∧
          receipt.verified.Holds before content ∧
            hashOk receipt.expectedHash receipt.verified.actualHash = true

/-- At most the accepted receive is unfinished, and what it has on disk is
accounted for. -/
structure RecvSide.Sole
    (before : Files) (applied : AppliedAccept)
    (earlier : List Receipt) (side : RecvSide) : Prop where
  sole : side.unfinished.length ≤ 1
  jobs : side.Jobs applied.Accepts
  resuming :
    ∀ job, side.pendingResumeRecv = some job →
      job.Grounded before side.files
  queued : ∀ job ∈ side.recvQueue, job.Grounded before side.files
  opening :
    ∀ job, side.receiver = .opening job →
      job.Grounded before side.files
  receiving :
    ∀ current, side.receiver = .receiving current →
      current.Written before side.files
  verifying :
    ∀ current, side.receiver = .verifying current →
      ∃ content,
        side.files current.targetWritePath = some (.file content) ∧
          current.Holds before content
  finished :
    side.receipts = earlier ∨
      (side.unfinished = [] ∧ side.Done before applied earlier)

variable {before : Files} {applied : AppliedAccept}
  {earlier : List Receipt} {side : RecvSide}

theorem unfinished_eq_nil :
    side.unfinished = [] ↔
      side.pendingResumeRecv = none ∧ side.recvQueue = [] ∧
        side.receiver.job? = none := by
  rw [RecvSide.unfinished, List.append_eq_nil_iff,
    List.append_eq_nil_iff, Option.toList_eq_nil_iff,
    Option.toList_eq_nil_iff, and_assoc]

namespace RecvSide.Sole

theorem of_ended
    (ended : side.unfinished = [])
    (finished :
      side.receipts = earlier ∨ side.Done before applied earlier) :
    side.Sole before applied earlier := by
  obtain ⟨noneWaiting, noneQueued, noJob⟩ := unfinished_eq_nil.mp ended
  have idle :
      ∀ phase, side.receiver = phase → phase.job? = none := by
    rintro phase rfl
    exact noJob
  constructor
  case sole =>
    rw [ended]
    exact Nat.zero_le 1
  case jobs =>
    refine ⟨?_, ?_, ?_⟩
    · rw [noneWaiting]
      nofun
    · rw [noneQueued]
      nofun
    · cases phase : side.receiver with
      | idle => trivial
      | stopped => trivial
      | _ => cases idle _ phase
  case resuming =>
    rw [noneWaiting]
    nofun
  case queued =>
    rw [noneQueued]
    nofun
  case opening =>
    intro job phase
    cases idle _ phase
  case receiving =>
    intro current phase
    cases idle _ phase
  case verifying =>
    intro current phase
    cases idle _ phase
  case finished =>
    exact finished.imp_right fun isDone => ⟨ended, isDone⟩

/-- The sole receive is the active one. -/
theorem active
    {job : RecvJob} (sole : side.Sole before applied earlier)
    (isActive : side.receiver.job? = some job) :
    side.pendingResumeRecv = none ∧ side.recvQueue = [] ∧
      side.receipts = earlier := by
  have one := sole.sole
  rw [RecvSide.unfinished, isActive, List.length_append,
    List.length_append] at one
  have noneWaiting : side.pendingResumeRecv = none := by
    cases waiting : side.pendingResumeRecv with
    | none => rfl
    | some other =>
        rw [waiting] at one
        simp only [Option.toList_some, List.length_singleton] at one
        omega
  have noneQueued : side.recvQueue = [] := by
    rw [← List.length_eq_zero_iff]
    simp only [Option.toList_some, List.length_singleton] at one
    omega
  refine ⟨noneWaiting, noneQueued, ?_⟩
  rcases sole.finished with same | ⟨ended, _⟩
  · exact same
  · rw [(unfinished_eq_nil.mp ended).2.2] at isActive
    cases isActive

/-- The sole receive waits for the answer to a resume offer. -/
theorem waiting
    {job : RecvJob} (sole : side.Sole before applied earlier)
    (isWaiting : side.pendingResumeRecv = some job) :
    side.recvQueue = [] ∧ side.receiver.job? = none ∧
      side.receipts = earlier := by
  have one := sole.sole
  rw [RecvSide.unfinished, isWaiting, List.length_append,
    List.length_append, Option.toList_some, List.length_singleton] at one
  have noneQueued : side.recvQueue = [] := by
    rw [← List.length_eq_zero_iff]
    omega
  have noneActive : side.receiver.job? = none := by
    rw [← Option.toList_eq_nil_iff, ← List.length_eq_zero_iff]
    omega
  refine ⟨noneQueued, noneActive, ?_⟩
  rcases sole.finished with same | ⟨ended, _⟩
  · exact same
  · rw [(unfinished_eq_nil.mp ended).1] at isWaiting
    cases isWaiting

/-- The sole receive is next in the queue. -/
theorem next
    {job : RecvJob} {rest : List RecvJob}
    (sole : side.Sole before applied earlier)
    (isQueued : side.recvQueue = job :: rest) :
    side.pendingResumeRecv = none ∧ rest = [] ∧
      side.receipts = earlier := by
  have one := sole.sole
  rw [RecvSide.unfinished, isQueued, List.length_append,
    List.length_append, List.length_cons] at one
  have noneWaiting : side.pendingResumeRecv = none := by
    rw [← Option.toList_eq_nil_iff, ← List.length_eq_zero_iff]
    omega
  have noneElse : rest = [] := by
    rw [← List.length_eq_zero_iff]
    omega
  refine ⟨noneWaiting, noneElse, ?_⟩
  rcases sole.finished with same | ⟨ended, _⟩
  · exact same
  · rw [(unfinished_eq_nil.mp ended).2.1] at isQueued
    cases isQueued

/-- The sole receive has not reached the receive task. -/
theorem of_inactive
    {job : RecvJob}
    (one : side.pendingResumeRecv.toList ++ side.recvQueue = [job])
    (noneActive : side.receiver.job? = none)
    (same : side.receipts = earlier)
    (accepts : applied.Accepts job)
    (grounded : job.Grounded before side.files) :
    side.Sole before applied earlier := by
  have inactive :
      ∀ phase, side.receiver = phase → phase.job? = none := by
    rintro phase rfl
    exact noneActive
  have isJob :
      ∀ other ∈ side.pendingResumeRecv.toList ++ side.recvQueue,
        other = job := by
    rw [one]
    exact fun other member => List.mem_singleton.mp member
  have waits :
      ∀ other, side.pendingResumeRecv = some other → other = job := by
    intro other waiting
    apply isJob
    rw [waiting]
    exact List.mem_append_left _ List.mem_cons_self
  have queues : ∀ other ∈ side.recvQueue, other = job :=
    fun other member => isJob other (List.mem_append_right _ member)
  constructor
  case sole =>
    rw [RecvSide.unfinished, one, noneActive]
    exact Nat.le_refl 1
  case jobs =>
    refine ⟨?_, ?_, ?_⟩
    · intro other waiting
      rw [waits other waiting]
      exact accepts
    · intro other member
      rw [queues other member]
      exact accepts
    · cases phase : side.receiver with
      | idle => trivial
      | stopped => trivial
      | _ => cases inactive _ phase
  case resuming =>
    intro other waiting
    rw [waits other waiting]
    exact grounded
  case queued =>
    intro other member
    rw [queues other member]
    exact grounded
  case opening =>
    intro other phase
    cases inactive _ phase
  case receiving =>
    intro current phase
    cases inactive _ phase
  case verifying =>
    intro current phase
    cases inactive _ phase
  case finished => exact Or.inl same

theorem of_active
    (noneWaiting : side.pendingResumeRecv = none)
    (noneQueued : side.recvQueue = [])
    (same : side.receipts = earlier)
    (holds : side.receiver.Holds applied.Accepts)
    (opening :
      ∀ job, side.receiver = .opening job →
        job.Grounded before side.files)
    (receiving :
      ∀ current, side.receiver = .receiving current →
        current.Written before side.files)
    (verifying :
      ∀ current, side.receiver = .verifying current →
        ∃ content,
          side.files current.targetWritePath = some (.file content) ∧
            current.Holds before content) :
    side.Sole before applied earlier := by
  constructor
  case sole =>
    rw [RecvSide.unfinished, noneWaiting, noneQueued]
    cases side.receiver.job? with
    | none => exact Nat.zero_le 1
    | some job => exact Nat.le_refl 1
  case jobs =>
    refine ⟨?_, ?_, holds⟩
    · rw [noneWaiting]
      nofun
    · rw [noneQueued]
      nofun
  case resuming =>
    rw [noneWaiting]
    nofun
  case queued =>
    rw [noneQueued]
    nofun
  case opening => exact opening
  case receiving => exact receiving
  case verifying => exact verifying
  case finished => exact Or.inl same

end RecvSide.Sole

/-! ## The coordination loop -/

theorem grounded_fromZero
    {job : RecvJob} (before files : Files)
    (fromZero : job.resumeOffset = 0) :
    job.Grounded before files := by
  intro positive
  rw [fromZero] at positive
  exact absurd positive (Nat.lt_irrefl 0)

theorem loopEffect_sole
    {peer : Peer} {label : PeerLabel} {next : RecvSide}
    (sole : peer.recvSide.Sole before applied earlier)
    (noAccept : peer.applied label = none)
    (effect : LoopEffect peer label next) :
    next.Sole before applied earlier := by
  have restarts :
      ∀ {job : RecvJob} {side : RecvSide},
        peer.coordinator.pendingResumeRecv = some job →
          side.pendingResumeRecv = none →
            side.recvQueue =
                peer.recvQueue ++ [{ job with resumeOffset := 0 }] →
              side.receiver = peer.receiver →
                side.receipts = peer.receipts →
                  side.Sole before applied earlier := by
    intro job side resuming cleared queue receiver receipts
    obtain ⟨noneQueued, noneActive, same⟩ := sole.waiting resuming
    have noneQueued : peer.recvQueue = [] := noneQueued
    have accepts := sole.jobs.resuming job resuming
    have one :
        side.pendingResumeRecv.toList ++ side.recvQueue =
          [{ job with resumeOffset := 0 }] := by
      rw [cleared, queue, noneQueued]
      rfl
    refine
      RecvSide.Sole.of_inactive one ?_ (receipts.trans same) ?_
        (grounded_fromZero before side.files rfl)
    · rw [receiver]
      exact noneActive
    · exact
        ⟨accepts.destPath, accepts.fileSize, accepts.checksum,
          Nat.zero_le _⟩
  cases effect with
  | quiet _ => exact sole
  | accepted other faults next isApplied _ _ =>
      rw [noAccept] at isApplied
      cases isApplied
  | resumed job _ _ resuming =>
      obtain ⟨noneQueued, noneActive, same⟩ := sole.waiting resuming
      have noneQueued : peer.recvQueue = [] := noneQueued
      refine
        RecvSide.Sole.of_inactive ?_ noneActive same
          (sole.jobs.resuming job resuming) (sole.resuming job resuming)
      change [] ++ (peer.recvQueue ++ [job]) = [job]
      rw [noneQueued]
      rfl
  | restarted job _ _ resuming =>
      exact restarts resuming rfl rfl rfl rfl
  | recreated job partPath created _ _ resuming _ _ =>
      exact restarts resuming rfl rfl rfl rfl

/-! ## The receive task -/

/-- Opening the target finds what is kept, or starts with nothing. -/
theorem opened_written
    {job : RecvJob} {files made opened : Files}
    (grounded : job.Grounded before files)
    (ensured : files.ensureDirectories job.ancestors = some made)
    (targetOpened : job.openTarget made = some opened) :
    (job.kept before).length = job.resumeOffset ∧
      ∃ content,
        opened job.targetWritePath = some (.file content) ∧
          OnDisk content (job.kept before) [] job.fileSize := by
  unfold RecvJob.openTarget at targetOpened
  split at targetOpened
  · rename_i positive
    have unchanged :
        ∀ node, files job.targetWritePath = some node →
          made job.targetWritePath = some node := by
      intro node present
      rcases FileStore.ensureDirectories_spec ensured
          job.targetWritePath with same | ⟨_, absent, _⟩
      · rw [same, present]
      · rw [present] at absent
        cases absent
    rcases grounded positive with
      ⟨content, present, kept, onDisk⟩ | ⟨length, isDirectory⟩
    · refine ⟨kept, content, ?_, onDisk⟩
      rcases FileStore.openWrite_eq_some targetOpened with
        ⟨rfl, _⟩ | ⟨absent, _⟩
      · exact unchanged _ present
      · rw [unchanged _ present] at absent
        cases absent
    · have stillDirectory := unchanged _ isDirectory
      rw [FileStore.openWrite, stillDirectory] at targetOpened
      cases targetOpened
  · rename_i notPositive
    have fromZero := Nat.eq_zero_of_not_pos notPositive
    have nothing : job.kept before = [] := by
      rw [RecvJob.kept, fromZero, List.take_zero]
    obtain ⟨rfl, _⟩ := FileStore.create_eq_some targetOpened
    rw [nothing, fromZero]
    exact ⟨rfl, [], FileStore.put_same _ _ _, OnDisk.empty _⟩

/-- Writing the next bytes at the position of the handle. -/
theorem storeBytes_onDisk
    {peer : Peer} {current : Receiving} {bytes : List UInt8}
    (written : current.Written before peer.files)
    (fits :
      current.job.resumeOffset + current.stored.length + bytes.length ≤
        current.job.fileSize) :
    ∃ content,
      (peer.storeBytes current bytes).files current.targetWritePath =
          some (.file content) ∧
        OnDisk content (current.job.kept before)
          (current.stored ++ bytes) current.job.fileSize := by
  obtain ⟨content, present, onDisk⟩ := written.onDisk
  refine ⟨_, FileStore.writeAt_same present _ _, ?_⟩
  rw [Receiving.position, ← written.kept]
  apply onDisk.write
  rw [written.kept]
  exact fits

theorem received_accounted
    {current : Receiving} {chunk : List UInt8} {loopEnd : Option Bool}
    (accounted : current.Accounted)
    (fits :
      chunk.length ≤ current.job.fileSize - current.totalReceived)
    (missing : current.totalReceived < current.job.fileSize)
    (nonempty : chunk ≠ [])
    (notEnded : loopEnd ≠ some true) :
    Receiving.Accounted
      { current with
        totalReceived := current.totalReceived + chunk.length
        chunks := current.chunks ++ [chunk]
        loopEnd := loopEnd } where
  total := by
    have total := accounted.total
    simp only [List.flatten_append, List.flatten_singleton,
      List.length_append]
    omega
  bounded := by
    change current.totalReceived + chunk.length ≤ current.job.fileSize
    omega
  all := fun ended => absurd ended notEnded
  nonempty := by
    intro other member
    rcases List.mem_append.mp member with earlier | new
    · exact accounted.nonempty other earlier
    · rw [List.mem_singleton.mp new]
      exact nonempty

/-- A drained receive that has ended well holds the whole file. -/
theorem closed_holds
    {peer : Peer} {current : Receiving} {rehashFails : Bool}
    (written : current.Written before peer.files)
    (ended : current.loopEnd = some true)
    (drained : current.chunks = []) :
    ∃ content,
      peer.files current.targetWritePath = some (.file content) ∧
        (peer.verifyingOf current rehashFails).Holds before content := by
  obtain ⟨content, present, onDisk⟩ := written.onDisk
  have total := written.accounted.total
  rw [drained, written.accounted.all ended] at total
  have reached :
      current.job.resumeOffset + current.stored.length =
        current.job.fileSize := by
    simpa using total.symm
  have whole :
      content = current.job.kept before ++ current.stored := by
    apply onDisk.complete
    rw [written.kept, reached]
  refine ⟨content, present, whole, written.kept, ?_, ?_⟩
  · rw [whole, List.length_append, written.kept]
    exact reached
  · intro checksum
    have checksum : current.job.checksum = true := checksum
    have isPresent := FileStore.content?_eq_some.mpr present
    change
      (if current.job.rehashes then
        (peer.files.content? current.targetWritePath).getD []
      else current.stored) = content
    split
    · rw [isPresent, Option.getD_some]
    · rename_i notRehashed
      have fromZero : current.job.resumeOffset = 0 := by
        rw [RecvJob.rehashes, checksum] at notRehashed
        simpa using notRehashed
      have nothing := written.kept
      rw [fromZero] at nothing
      rw [whole, List.eq_nil_of_length_eq_zero nothing, List.nil_append]

section Active

variable {peer : Peer} {next : RecvSide}

/-- A step of the task leaves what waits and is queued. -/
structure Peer.KeepsQueue (peer : Peer) (next : RecvSide) : Prop where
  waiting : next.pendingResumeRecv = peer.coordinator.pendingResumeRecv
  queue : next.recvQueue = peer.recvQueue

/-- A step that leaves the active receive without a successor. -/
theorem RecvSide.Sole.ends
    {job : RecvJob} (sole : peer.recvSide.Sole before applied earlier)
    (isActive : peer.receiver.job? = some job) (keeps : peer.KeepsQueue next)
    (ended : next.receiver.job? = none)
    (receipts : next.receipts = peer.receipts) :
    next.Sole before applied earlier := by
  obtain ⟨noneWaiting, noneQueued, same⟩ := sole.active isActive
  apply RecvSide.Sole.of_ended
  · exact
      unfinished_eq_nil.mpr
        ⟨keeps.waiting.trans noneWaiting, keeps.queue.trans noneQueued,
          ended⟩
  · exact Or.inl (receipts.trans same)

/-- A step of the running receive. -/
theorem RecvSide.Sole.runs
    {current after : Receiving}
    (sole : peer.recvSide.Sole before applied earlier)
    (phase : peer.receiver = .receiving current) (keeps : peer.KeepsQueue next)
    (receipts : next.receipts = peer.receipts)
    (isAfter : next.receiver = .receiving after)
    (sameJob : after.job = current.job)
    (sameTarget : after.targetWritePath = current.targetWritePath)
    (written : after.Written before next.files) :
    next.Sole before applied earlier := by
  have holds : peer.receiver.Holds applied.Accepts := sole.jobs.active
  obtain ⟨noneWaiting, noneQueued, same⟩ :=
    sole.active (congrArg RecvPhase.job? phase)
  rw [phase] at holds
  refine
    RecvSide.Sole.of_active (keeps.waiting.trans noneWaiting)
      (keeps.queue.trans noneQueued) (receipts.trans same) ?_ ?_ ?_ ?_
  · rw [isAfter, RecvPhase.Holds, sameJob, sameTarget]
    exact holds
  · rw [isAfter]
    nofun
  · intro other isOther
    rw [isAfter] at isOther
    rw [← RecvPhase.receiving.inj isOther]
    exact written
  · rw [isAfter]
    nofun

/-- The step that completes the receive. -/
theorem RecvSide.Sole.completes
    {current : Verifying} {content : List UInt8} {expectedHash : String}
    (sole : peer.recvSide.Sole before applied earlier)
    (phase : peer.receiver = .verifying current) (keeps : peer.KeepsQueue next)
    (whole : current.Holds before content)
    (passed : hashOk expectedHash current.actualHash = true)
    (present : next.files applied.destPath = some (.file content))
    (idle : next.receiver = .idle)
    (receipts :
      next.receipts = peer.receipts ++ [⟨current, expectedHash⟩]) :
    next.Sole before applied earlier := by
  have holds : peer.receiver.Holds applied.Accepts := sole.jobs.active
  obtain ⟨noneWaiting, noneQueued, same⟩ :=
    sole.active (congrArg RecvPhase.job? phase)
  have same : peer.receipts = earlier := same
  rw [phase] at holds
  apply RecvSide.Sole.of_ended
  · exact
      unfinished_eq_nil.mpr
        ⟨keeps.waiting.trans noneWaiting, keeps.queue.trans noneQueued, by
          rw [idle]
          rfl⟩
  · rw [same] at receipts
    exact Or.inr ⟨_, content, receipts, holds.1, present, whole, passed⟩

/-- Storing the next chunk. -/
theorem stored_written
    {current : Receiving} {chunk : List UInt8} {rest : List (List UInt8)}
    (written : current.Written before peer.files)
    (queued : current.chunks = chunk :: rest) :
    Receiving.Written
      { current with chunks := rest, stored := current.stored ++ chunk }
      before (peer.storeBytes current chunk).files := by
  have total := written.accounted.total
  have bounded := written.accounted.bounded
  rw [queued, List.flatten_cons, List.length_append] at total
  have fits :
      current.job.resumeOffset + current.stored.length + chunk.length ≤
        current.job.fileSize := by
    omega
  refine
    ⟨⟨?_, bounded, written.accounted.all, ?_⟩, written.kept,
      storeBytes_onDisk written fits⟩
  · change
      current.totalReceived =
        current.job.resumeOffset + (current.stored ++ chunk).length +
          rest.flatten.length
    rw [List.length_append]
    omega
  · intro other member
    apply written.accounted.nonempty
    rw [queued]
    exact List.mem_cons_of_mem _ member

/-- The disk writer fails after some bytes of the next chunk. -/
theorem cut_written
    {current : Receiving} {chunk : List UInt8} {rest : List (List UInt8)}
    (written : current.Written before peer.files)
    (queued : current.chunks = chunk :: rest) (length : Nat) :
    Receiving.Written { current with writerAlive := false } before
      (peer.storeBytes current (chunk.take length)).files := by
  have total := written.accounted.total
  have bounded := written.accounted.bounded
  rw [queued, List.flatten_cons, List.length_append] at total
  have fits :
      current.job.resumeOffset + current.stored.length +
          (chunk.take length).length ≤
        current.job.fileSize := by
    have := List.length_take_le' length chunk
    omega
  obtain ⟨content, present, onDisk⟩ := storeBytes_onDisk written fits
  exact
    ⟨⟨written.accounted.total, bounded, written.accounted.all,
        written.accounted.nonempty⟩,
      written.kept, content, present, onDisk.forget⟩

end Active

theorem taskEffect_sole
    {label : RecvLabel} {peer next : Peer}
    (sole : peer.recvSide.Sole before applied earlier)
    (effect : TaskEffect label peer next) :
    next.recvSide.Sole before applied earlier := by
  have holds : peer.receiver.Holds applied.Accepts := sole.jobs.active
  cases effect with
  | started job rest idle queued =>
      obtain ⟨noneWaiting, noneElse, same⟩ := sole.next queued
      have isNext : job ∈ peer.recvQueue := by
        rw [queued]
        exact List.mem_cons_self
      refine
        RecvSide.Sole.of_active noneWaiting noneElse same
          (sole.jobs.queued job isNext) ?_ nofun nofun
      intro other isOther
      rw [← RecvPhase.opening.inj isOther]
      exact sole.queued job isNext
  | refused job files opening _ =>
      exact sole.ends (congrArg RecvPhase.job? opening) ⟨rfl, rfl⟩ rfl rfl
  | seekFailed job files opened opening _ _ =>
      exact sole.ends (congrArg RecvPhase.job? opening) ⟨rfl, rfl⟩ rfl rfl
  | opened job made opened opening ensured targetOpened =>
      obtain ⟨noneWaiting, noneQueued, same⟩ :=
        sole.active (congrArg RecvPhase.job? opening)
      rw [opening] at holds
      have accepts : applied.Accepts job := holds
      obtain ⟨kept, content, present, onDisk⟩ :=
        opened_written (sole.opening job opening) ensured targetOpened
      refine
        RecvSide.Sole.of_active noneWaiting noneQueued same ⟨accepts, rfl⟩
          nofun ?_ nofun
      intro current isCurrent
      rw [← RecvPhase.receiving.inj isCurrent]
      refine ⟨⟨rfl, ?_, nofun, nofun⟩, kept, content, present, onDisk⟩
      change job.resumeOffset ≤ job.fileSize
      rw [accepts.fileSize]
      exact accepts.offset
  | received current chunk loopEnd _ phase _ fits missing nonempty
      notEnded =>
      have written := sole.receiving current phase
      refine sole.runs phase ⟨rfl, rfl⟩ rfl rfl rfl rfl ?_
      exact
        ⟨received_accounted written.accounted fits missing nonempty
            notEnded,
          written.kept, written.onDisk⟩
  | loopFailed current phase =>
      have written := sole.receiving current phase
      refine sole.runs phase ⟨rfl, rfl⟩ rfl rfl rfl rfl ?_
      exact
        ⟨⟨written.accounted.total, written.accounted.bounded, nofun,
            written.accounted.nonempty⟩,
          written.kept, written.onDisk⟩
  | loopEnded current phase _ all =>
      have written := sole.receiving current phase
      refine sole.runs phase ⟨rfl, rfl⟩ rfl rfl rfl rfl ?_
      exact
        ⟨⟨written.accounted.total, written.accounted.bounded,
            fun _ => Nat.le_antisymm written.accounted.bounded all,
            written.accounted.nonempty⟩,
          written.kept, written.onDisk⟩
  | storedChunk current chunk rest phase _ queued =>
      exact
        sole.runs phase ⟨rfl, rfl⟩ rfl rfl rfl rfl
          (stored_written (sole.receiving current phase) queued)
  | writerFailed current chunk rest length phase queued =>
      exact
        sole.runs phase ⟨rfl, rfl⟩ rfl rfl rfl rfl
          (cut_written (sole.receiving current phase) queued length)
  | reported current => exact sole
  | closed current flushFails rehashFails _ phase ended _ drained =>
      obtain ⟨noneWaiting, noneQueued, same⟩ :=
        sole.active (congrArg RecvPhase.job? phase)
      rw [phase] at holds
      refine
        RecvSide.Sole.of_active noneWaiting noneQueued same holds nofun
          nofun ?_
      intro other isOther
      rw [← RecvPhase.verifying.inj isOther]
      exact closed_holds (sole.receiving current phase) ended drained
  | gaveUp current phase =>
      exact sole.ends (congrArg RecvPhase.job? phase) ⟨rfl, rfl⟩ rfl rfl
  | rejected current rest phase =>
      exact sole.ends (congrArg RecvPhase.job? phase) ⟨rfl, rfl⟩ rfl rfl
  | completed current expectedHash rest phase _ passed direct =>
      obtain ⟨content, present, whole⟩ := sole.verifying current phase
      rw [phase] at holds
      have isDest : current.targetWritePath = applied.destPath := by
        rw [holds.2, targetWritePath_dest direct, holds.1.destPath]
      rw [isDest] at present
      exact sole.completes phase ⟨rfl, rfl⟩ whole passed present rfl rfl
  | committed current expectedHash rest renamed phase _ passed _ moved =>
      obtain ⟨content, present, whole⟩ := sole.verifying current phase
      obtain ⟨movedContent, found, rfl, _⟩ := FileStore.rename_eq_some moved
      have sameContent : content = movedContent :=
        Node.file.inj (Option.some.inj (present.symm.trans found))
      rw [phase] at holds
      refine sole.completes phase ⟨rfl, rfl⟩ whole passed ?_ rfl rfl
      change
        ((peer.files.remove current.targetWritePath).put
            current.job.destPath movedContent) applied.destPath =
          some (.file content)
      rw [holds.1.destPath, FileStore.put_same, sameContent]
  | abandoned current phase =>
      exact sole.ends (congrArg RecvPhase.job? phase) ⟨rfl, rfl⟩ rfl rfl

theorem peerStep_sole
    {peer next : Peer} {label : PeerLabel}
    (sole : peer.recvSide.Sole before applied earlier)
    (noAccept : peer.applied label = none)
    (stepped : peerStep peer label = some next) :
    next.recvSide.Sole before applied earlier := by
  rcases peerStep_effect stepped with effect | ⟨recvLabel, _, effect⟩
  · exact loopEffect_sole sole noAccept effect
  · exact taskEffect_sole sole effect

/-! ## The accept -/

/-- The staging file can be cut back, or is no longer than the offer. -/
def AppliedAccept.CutsBack
    (applied : AppliedAccept) (files : Files) (faults : Faults) : Prop :=
  faults.truncate = true →
    (files.length? applied.partPath).getD 0 ≤ applied.size

theorem job_target_part
    (applied : AppliedAccept) (offset offer : Nat) :
    (applied.job offset true offer).targetWritePath =
      applied.partPath := by
  rw [targetWritePath_part rfl, AppliedAccept.job_destPath,
    AppliedAccept.partPath]

theorem job_target_dest
    (applied : AppliedAccept) (offset offer : Nat) :
    (applied.job offset false offer).targetWritePath =
      applied.destPath := by
  rw [targetWritePath_dest rfl, AppliedAccept.job_destPath]

theorem job_accepts
    (applied : AppliedAccept) {offset : Nat} (usePart : Bool)
    (offer : Nat) (fits : offset ≤ applied.size) :
    applied.Accepts (applied.job offset usePart offer) where
  destPath := applied.job_destPath offset usePart offer
  fileSize := rfl
  checksum := rfl
  offset := fits

/-- What has a length is a file of that length, or a directory. -/
theorem node_of_length
    {files : Files} {path : UnixPath} {length : Nat}
    (measured : (files.length? path).getD 0 = length)
    (positive : 0 < length) :
    (∃ content,
        files path = some (.file content) ∧ content.length = length) ∨
      files path = some (.directory length) := by
  unfold FileStore.length? at measured
  split at measured
  · rename_i content present
    exact Or.inl ⟨content, present, measured⟩
  · rename_i other isDirectory
    have same : other = length := measured
    rw [same] at isDirectory
    exact Or.inr isDirectory
  · have nothing : 0 = length := measured
    omega

/-- A prefix of what was there before is kept. -/
theorem grounded_of_prefix
    {job : RecvJob} {files : Files} {existing content : List UInt8}
    (found : before job.targetWritePath = some (.file existing))
    (present : files job.targetWritePath = some (.file content))
    (within : job.resumeOffset ≤ existing.length)
    (same :
      content.take job.resumeOffset = existing.take job.resumeOffset)
    (bounded : content.length ≤ job.fileSize) :
    job.Grounded before files := by
  intro _
  have isKept :
      job.kept before = existing.take job.resumeOffset := by
    rw [RecvJob.kept, FileStore.content?_eq_some.mpr found,
      Option.getD_some]
  have keptLength : (job.kept before).length = job.resumeOffset := by
    rw [isKept, List.length_take_of_le within]
  refine Or.inl ⟨content, present, keptLength, ?_, bounded⟩
  rw [List.length_nil, Nat.add_zero, keptLength, List.append_nil, same,
    isKept]

/-- Accepting an offer at rest starts its sole receive. -/
theorem acceptEffect_sole
    {faults : Faults} {next : RecvSide}
    (atRest : side.unfinished = [])
    (cutsBack : applied.CutsBack side.files faults)
    (effect : AcceptEffect applied faults side next) :
    next.Sole side.files applied side.receipts := by
  obtain ⟨noneWaiting, noneQueued, noneActive⟩ :=
    unfinished_eq_nil.mp atRest
  have queues :
      ∀ job,
        side.pendingResumeRecv.toList ++ (side.recvQueue ++ [job]) =
          [job] := by
    intro job
    rw [noneWaiting, noneQueued]
    rfl
  have waits :
      ∀ job, (some job).toList ++ side.recvQueue = [job] := by
    intro job
    rw [noneQueued]
    rfl
  cases effect with
  | small offer _ =>
      exact
        RecvSide.Sole.of_inactive (queues _) noneActive rfl
          (job_accepts applied false offer (Nat.zero_le _))
          (grounded_fromZero _ _ rfl)
  | fresh offer _ =>
      exact
        RecvSide.Sole.of_inactive (queues _) noneActive rfl
          (job_accepts applied true offer (Nat.zero_le _))
          (grounded_fromZero _ _ rfl)
  | keepPart offer existing _ _ positive measured uncut =>
      obtain ⟨withinExisting, withinSize⟩ :=
        alignedOffset_le existing applied.size
      refine
        RecvSide.Sole.of_inactive (waits _) noneActive rfl
          (job_accepts applied true offer withinSize) ?_
      rcases node_of_length measured (pos_of_alignedOffset positive) with
        ⟨content, present, isLength⟩ | isDirectory
      · have bounded : content.length ≤ applied.size := by
          rcases uncut with fails | refused
          · have fits := cutsBack fails
            rw [measured] at fits
            rw [isLength]
            exact fits
          · rw [FileStore.setLength, present] at refused
            cases refused
        rw [← job_target_part applied
          (alignedOffset existing applied.size) offer] at present
        have within :
            alignedOffset existing applied.size ≤ content.length := by
          rw [isLength]
          exact withinExisting
        exact grounded_of_prefix present present within rfl bounded
      · intro _
        rw [← job_target_part applied
          (alignedOffset existing applied.size) offer] at isDirectory
        exact Or.inr ⟨existing, isDirectory⟩
  | cutPart offer existing cut _ _ positive measured succeeded =>
      obtain ⟨withinExisting, withinSize⟩ :=
        alignedOffset_le existing applied.size
      refine
        RecvSide.Sole.of_inactive (waits _) noneActive rfl
          (job_accepts applied true offer withinSize) ?_
      obtain ⟨content, present, isCut⟩ :=
        FileStore.setLength_eq_some succeeded
      have isLength : content.length = existing := by
        rw [← measured, FileStore.length?, present]
        rfl
      have within :
          alignedOffset existing applied.size ≤ content.length := by
        rw [isLength]
        exact withinExisting
      have isPresent :
          cut applied.partPath =
            some
              (.file
                (content.take (alignedOffset existing applied.size))) := by
        rw [isCut, FileStore.put_same, resized_of_le within]
      rw [← job_target_part applied
        (alignedOffset existing applied.size) offer] at present isPresent
      have same :
          (content.take (alignedOffset existing applied.size)).take
              (alignedOffset existing applied.size) =
            content.take (alignedOffset existing applied.size) := by
        rw [List.take_take, Nat.min_self]
      have bounded :
          (content.take (alignedOffset existing applied.size)).length ≤
            applied.size := by
        rw [List.length_take_of_le within]
        exact withinSize
      exact grounded_of_prefix present isPresent within same bounded
  | keepDest offer large _ _ _ measured =>
      have positive : 0 < applied.size :=
        Nat.lt_of_lt_of_le resumeThresholdBytes_pos large
      refine
        RecvSide.Sole.of_inactive (waits _) noneActive rfl
          (job_accepts applied false offer (Nat.le_refl _)) ?_
      rcases node_of_length measured positive with
        ⟨content, present, isLength⟩ | isDirectory
      · rw [← job_target_dest applied applied.size offer] at present
        exact
          grounded_of_prefix present present (Nat.le_of_eq isLength.symm)
            rfl (Nat.le_of_eq isLength)
      · intro _
        rw [← job_target_dest applied applied.size offer] at isDirectory
        exact Or.inr ⟨applied.size, isDirectory⟩

end Quiczilla
