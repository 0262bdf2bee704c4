import Mathlib.Data.List.Perm.Subperm
import Quiczilla.OwnReceive

/-!
# Connections that share one directory

A daemon serves each connection by a peer of its own; all of them receive into
the same files.  A label is a step of one connection.  `received` records the
bytes that a connection has read for the file in progress; the program does
not keep them.

Receives start at byte zero here: no accept asks for a resume.
-/

namespace Quiczilla

open Foundation

structure Daemon (Connection : Type) where
  files : Files
  peers : Connection → Peer
  received : Connection → List UInt8

namespace Daemon

variable {Connection : Type}

def initial (files : Files) : Daemon Connection where
  files := files
  peers := fun _ => Peer.initial files
  received := fun _ => []

/-- The peer of the connection, with the files as they are now. -/
def peer (daemon : Daemon Connection) (connection : Connection) : Peer :=
  { daemon.peers connection with files := daemon.files }

end Daemon

/-- The bytes read for the file in progress. -/
def bytesAfter (received : List UInt8) : PeerLabel → List UInt8
  | .recv (.openTarget _) => []
  | .recv (.receive chunk) => received ++ chunk
  | _ => received

def daemonStep {Connection : Type} [DecidableEq Connection]
    (daemon : Daemon Connection) (label : Connection × PeerLabel) :
    Option (Daemon Connection) :=
  (peerStep (daemon.peer label.1) label.2).map fun next =>
    { files := next.files
      peers := Function.update daemon.peers label.1 next
      received :=
        Function.update daemon.received label.1
          (bytesAfter (daemon.received label.1) label.2) }

/-- No unfinished receive of any connection uses a path of the accept, and its
staging path is not the destination of a completed receive. -/
structure Daemon.Apart {Connection : Type}
    (daemon : Daemon Connection) (applied : AppliedAccept) : Prop where
  unfinished :
    ∀ connection,
      ∀ job ∈ (daemon.peer connection).recvSide.unfinished,
        ∀ path ∈ applied.paths, path ∉ job.paths
  completed :
    ∀ connection, ∀ receipt ∈ (daemon.peers connection).receipts,
      receipt.verified.job.destPath ≠ applied.destPath →
        receipt.verified.job.destPath ∉ applied.paths

/-- An accept does not resume, and is apart from all other receives. -/
def AcceptsApart {Connection : Type}
    (daemon : Daemon Connection) (label : Connection × PeerLabel) : Prop :=
  ∀ applied, (daemon.peer label.1).applied label.2 = some applied →
    applied.accept.resume = false ∧ daemon.Apart applied

/-- The step does not accept a receive of this destination. -/
def AcceptsElsewhere {Connection : Type} (destPath : UnixPath)
    (daemon : Daemon Connection) (label : Connection × PeerLabel) : Prop :=
  ∀ applied, (daemon.peer label.1).applied label.2 = some applied →
    applied.destPath ≠ destPath

/-! ## One connection -/

/-- The receives of a connection start at byte zero, and an open file holds
what the disk writer has written. -/
structure FreshReceive (side : RecvSide) (received : List UInt8) :
    Prop where
  notWaiting : side.pendingResumeRecv = none
  jobs : side.Jobs fun job => job.resumeOffset = 0
  receiving :
    ∀ current, side.receiver = .receiving current →
      current.stored ++ current.chunks.flatten = received ∧
        (current.writerAlive = true →
          side.files current.targetWritePath =
            some (.file current.stored))
  verifying :
    ∀ current, side.receiver = .verifying current →
      current.stored = received ∧
        side.files current.targetWritePath = some (.file current.stored)

section OneConnection

variable {peer next : Peer} {received : List UInt8}

theorem recvStep_openTarget
    {outcome : OpenTarget}
    (stepped : peer.recvStep (.openTarget outcome) = some next) :
    ∃ job, peer.receiver = .opening job := by
  unfold Peer.recvStep at stepped
  cases phase : peer.receiver with
  | opening job => exact ⟨job, rfl⟩
  | _ =>
      rw [phase] at stepped
      cases stepped

/-- An accept without resume queues one job from byte zero. -/
theorem acceptEffect_fresh
    {applied : AppliedAccept} {faults : Faults} {side after : RecvSide}
    (noResume : applied.accept.resume = false)
    (effect : AcceptEffect applied faults side after) :
    ∃ job : RecvJob, job.resumeOffset = 0 ∧
      job.destPath = applied.destPath ∧
        (∀ path ∈ job.paths, path ∈ applied.paths) ∧
          ∃ part,
            after =
              { side with
                currentPartPath := part
                recvQueue := side.recvQueue ++ [job] } := by
  have impossible {goal : Prop} (resume : applied.accept.resume = true) :
      goal := by
    rw [noResume] at resume
    cases resume
  cases effect with
  | small offer _ =>
      exact
        ⟨applied.job 0 false offer, rfl, applied.job_destPath _ _ _,
          job_paths (fun staged => absurd staged Bool.false_ne_true) 0
            offer,
          none, rfl⟩
  | fresh offer isLarge =>
      exact
        ⟨applied.job 0 true offer, rfl, applied.job_destPath _ _ _,
          job_paths (fun _ => isLarge) 0 offer, some applied.partPath, rfl⟩
  | keepPart offer existing _ resume _ _ _ => exact impossible resume
  | cutPart offer existing cut _ resume _ _ _ => exact impossible resume
  | keepDest offer _ resume _ _ _ => exact impossible resume

/-- What the loop does to a connection without resumes: nothing, or one more
job. -/
theorem loopEffect_fresh
    {label : PeerLabel} {after : RecvSide}
    (fresh : FreshReceive peer.recvSide received)
    (noResume :
      ∀ applied, peer.applied label = some applied →
        applied.accept.resume = false)
    (effect : LoopEffect peer label after) :
    after = peer.recvSide ∨
      ∃ applied job part, peer.applied label = some applied ∧
        job.resumeOffset = 0 ∧ job.destPath = applied.destPath ∧
          (∀ path ∈ job.paths, path ∈ applied.paths) ∧
            after =
              { peer.recvSide with
                currentPartPath := part
                recvQueue := peer.recvQueue ++ [job] } := by
  have impossible {goal : Prop} {job : RecvJob}
      (waiting : peer.coordinator.pendingResumeRecv = some job) : goal := by
    have noneWaiting : peer.coordinator.pendingResumeRecv = none :=
      fresh.notWaiting
    rw [noneWaiting] at waiting
    cases waiting
  cases effect with
  | quiet _ => exact .inl rfl
  | accepted applied faults after isApplied _ accepted =>
      obtain ⟨job, fromZero, isDest, inPaths, part, isAfter⟩ :=
        acceptEffect_fresh (noResume applied isApplied) accepted
      exact
        .inr
          ⟨applied, job, part, isApplied, fromZero, isDest, inPaths,
            isAfter⟩
  | resumed job _ _ waiting => exact impossible waiting
  | restarted job _ _ waiting => exact impossible waiting
  | recreated job partPath created _ _ waiting _ _ =>
      exact impossible waiting

/-- The disk writer appends to what it has written. -/
theorem storeBytes_fresh
    {current : Receiving} (fromZero : current.job.resumeOffset = 0)
    (present :
      peer.files current.targetWritePath = some (.file current.stored))
    (bytes : List UInt8) :
    (peer.storeBytes current bytes).files current.targetWritePath =
      some (.file (current.stored ++ bytes)) := by
  have position : current.position = current.stored.length := by
    rw [Receiving.position, fromZero, Nat.zero_add]
  have written :=
    FileStore.writeAt_same present current.stored.length bytes
  rw [overwritten_at_end, ← position] at written
  exact written

/-- A new target is empty. -/
theorem openTarget_fresh
    {job : RecvJob} (fromZero : job.resumeOffset = 0)
    {files opened : Files} (isOpened : job.openTarget files = some opened) :
    opened job.targetWritePath = some (.file []) := by
  unfold RecvJob.openTarget at isOpened
  rw [fromZero, if_neg (Nat.lt_irrefl 0)] at isOpened
  rw [(FileStore.create_eq_some isOpened).1, FileStore.put_same]

/-- A phase without an open file says nothing about the files. -/
theorem FreshReceive.of_closed
    {side : RecvSide} (notWaiting : side.pendingResumeRecv = none)
    (jobs : side.Jobs fun job => job.resumeOffset = 0)
    (noTarget : side.receiver.target = none) :
    FreshReceive side received where
  notWaiting := notWaiting
  jobs := jobs
  receiving := by
    intro current phase
    rw [phase] at noTarget
    cases noTarget
  verifying := by
    intro current phase
    rw [phase] at noTarget
    cases noTarget

theorem FreshReceive.of_receiving
    {side : RecvSide} {current : Receiving}
    (notWaiting : side.pendingResumeRecv = none)
    (jobs : side.Jobs fun job => job.resumeOffset = 0)
    (phase : side.receiver = .receiving current)
    (bytes : current.stored ++ current.chunks.flatten = received)
    (present :
      current.writerAlive = true →
        side.files current.targetWritePath =
          some (.file current.stored)) :
    FreshReceive side received where
  notWaiting := notWaiting
  jobs := jobs
  receiving := by
    intro other isOther
    rw [phase] at isOther
    cases isOther
    exact ⟨bytes, present⟩
  verifying := by
    intro other isOther
    rw [phase] at isOther
    cases isOther

/-- The open file is all that the condition says of the files. -/
theorem FreshReceive.withFiles
    {side : RecvSide} (fresh : FreshReceive side received)
    {files : Files}
    (kept :
      ∀ path content, side.receiver.target = some path →
        side.files path = some (.file content) →
          files path = some (.file content)) :
    FreshReceive { side with files := files } received where
  notWaiting := fresh.notWaiting
  jobs := ⟨fresh.jobs.resuming, fresh.jobs.queued, fresh.jobs.active⟩
  receiving := by
    intro current phase
    obtain ⟨bytes, present⟩ := fresh.receiving current phase
    refine ⟨bytes, ?_⟩
    intro alive
    exact kept _ _ (congrArg RecvPhase.target phase) (present alive)
  verifying := by
    intro current phase
    obtain ⟨bytes, present⟩ := fresh.verifying current phase
    exact ⟨bytes, kept _ _ (congrArg RecvPhase.target phase) present⟩

/-- What is read goes to the chunk channel. -/
theorem receive_fresh
    {chunk : List UInt8} (fresh : FreshReceive peer.recvSide received)
    (stepped : peer.recvStep (.receive chunk) = some next) :
    FreshReceive next.recvSide (received ++ chunk) := by
  have effect := recvStep_effect stepped
  have jobs := taskEffect_jobs fresh.jobs effect
  have notWaiting : next.recvSide.pendingResumeRecv = none :=
    (congrArg Coordinator.pendingResumeRecv
      (taskEffect_coordinator effect)).trans fresh.notWaiting
  unfold Peer.recvStep at stepped
  cases phase : peer.receiver with
  | receiving current =>
      obtain ⟨bytes, present⟩ := fresh.receiving current phase
      rw [phase] at stepped
      simp only [Peer.receive] at stepped
      split at stepped
      · cases stepped
        refine FreshReceive.of_receiving notWaiting jobs rfl ?_ present
        simp only [List.flatten_append, List.flatten_singleton]
        rw [← List.append_assoc, bytes]
      · cases stepped
  | _ =>
      rw [phase] at stepped
      cases stepped

/-- Opening a target forgets what was read before. -/
theorem openTarget_step_fresh
    {outcome : OpenTarget} (fresh : FreshReceive peer.recvSide received)
    (stepped : peer.recvStep (.openTarget outcome) = some next) :
    FreshReceive next.recvSide [] := by
  have effect := recvStep_effect stepped
  have jobs := taskEffect_jobs fresh.jobs effect
  have notWaiting : next.recvSide.pendingResumeRecv = none :=
    (congrArg Coordinator.pendingResumeRecv
      (taskEffect_coordinator effect)).trans fresh.notWaiting
  obtain ⟨job, opening⟩ := recvStep_openTarget stepped
  have fromZero : job.resumeOffset = 0 := by
    have active : peer.receiver.Holds fun job => job.resumeOffset = 0 :=
      fresh.jobs.active
    rw [opening] at active
    exact active
  have opens : peer.openTarget job outcome = some next := by
    unfold Peer.recvStep at stepped
    rw [opening] at stepped
    exact stepped
  unfold Peer.openTarget at opens
  split at opens
  · cases opens
    exact FreshReceive.of_closed notWaiting jobs rfl
  · cases opens
    exact FreshReceive.of_closed notWaiting jobs rfl
  · split at opens
    · obtain ⟨opened, _, rfl⟩ := Option.map_eq_some_iff.mp opens
      exact FreshReceive.of_closed notWaiting jobs rfl
    · cases opens
  · obtain ⟨opened, isOpened, rfl⟩ := Option.map_eq_some_iff.mp opens
    refine FreshReceive.of_receiving notWaiting jobs rfl rfl ?_
    intro _
    exact openTarget_fresh fromZero isOpened
  · cases opens

/-- The other steps of the task read nothing. -/
theorem task_fresh
    {label : RecvLabel} (fresh : FreshReceive peer.recvSide received)
    (notRead : ∀ chunk, label ≠ .receive chunk)
    (notOpen : ∀ outcome, label ≠ .openTarget outcome)
    (stepped : peer.recvStep label = some next) :
    FreshReceive next.recvSide received := by
  have effect := recvStep_effect stepped
  have jobs := taskEffect_jobs fresh.jobs effect
  have notWaiting : next.recvSide.pendingResumeRecv = none :=
    (congrArg Coordinator.pendingResumeRecv
      (taskEffect_coordinator effect)).trans fresh.notWaiting
  have active :
      peer.receiver.Holds fun job => job.resumeOffset = 0 :=
    fresh.jobs.active
  cases effect with
  | opened job files opened opening _ _ =>
      obtain ⟨outcome, isOpen⟩ := recvStep_opening opening stepped
      exact absurd isOpen (notOpen outcome)
  | received current chunk loopEnd isRead =>
      exact absurd isRead (notRead chunk)
  | loopFailed current phase =>
      obtain ⟨bytes, present⟩ := fresh.receiving current phase
      exact FreshReceive.of_receiving notWaiting jobs rfl bytes present
  | loopEnded current phase _ _ =>
      obtain ⟨bytes, present⟩ := fresh.receiving current phase
      exact FreshReceive.of_receiving notWaiting jobs rfl bytes present
  | storedChunk current chunk rest phase alive queued =>
      obtain ⟨bytes, present⟩ := fresh.receiving current phase
      rw [phase] at active
      refine FreshReceive.of_receiving notWaiting jobs rfl ?_ ?_
      · rw [queued, List.flatten_cons, ← List.append_assoc] at bytes
        exact bytes
      · intro _
        exact storeBytes_fresh active.1 (present alive) chunk
  | writerFailed current chunk rest length phase _ =>
      obtain ⟨bytes, present⟩ := fresh.receiving current phase
      refine FreshReceive.of_receiving notWaiting jobs rfl bytes ?_
      intro alive
      cases alive
  | reported current =>
      exact ⟨notWaiting, jobs, fresh.receiving, fresh.verifying⟩
  | closed current flushFails rehashFails _ phase ended alive drained =>
      obtain ⟨bytes, present⟩ := fresh.receiving current phase
      rw [drained, List.flatten_nil, List.append_nil] at bytes
      refine ⟨notWaiting, jobs, ?_, ?_⟩
      · intro other isOther
        cases isOther
      · intro other isOther
        cases isOther
        exact ⟨bytes, present alive⟩
  | _ => exact FreshReceive.of_closed notWaiting jobs rfl

theorem taskStep_fresh
    {label : RecvLabel} (fresh : FreshReceive peer.recvSide received)
    (stepped : peer.recvStep label = some next) :
    FreshReceive next.recvSide (bytesAfter received (.recv label)) := by
  cases label with
  | receive chunk => exact receive_fresh fresh stepped
  | openTarget outcome => exact openTarget_step_fresh fresh stepped
  | _ => exact task_fresh fresh (by simp) (by simp) stepped

/-- A file that no active receive uses stays. -/
theorem taskEffect_present
    {label : RecvLabel} {path : UnixPath} {content : List UInt8}
    (jobs : peer.receiver.Holds fun job => job.resumeOffset = 0)
    (elsewhere :
      ∀ job, peer.receiver.job? = some job → path ∉ job.paths)
    (present : peer.files path = some (.file content))
    (effect : TaskEffect label peer next) :
    next.files path = some (.file content) := by
  refine
    (taskEffect_elsewhere (jobs.mono fun _ _ => trivial) elsewhere ?_
      effect).trans present
  intro job made _ ensured
  rcases ensureDirectories_frame ensured path with same | ⟨absent, _⟩
  · exact same
  · rw [present] at absent
    cases absent

/-- A step of the task adds nothing to what is unfinished. -/
theorem taskEffect_unfinished
    {label : RecvLabel} (effect : TaskEffect label peer next) :
    next.recvSide.unfinished.Subperm peer.recvSide.unfinished := by
  have ended
      {other : Peer} (ends : other.receiver.job? = none)
      (waiting :
        other.coordinator.pendingResumeRecv =
          peer.coordinator.pendingResumeRecv)
      (queue : other.recvQueue = peer.recvQueue) :
      other.recvSide.unfinished.Subperm peer.recvSide.unfinished := by
    have shorter :
        other.recvSide.unfinished =
          peer.coordinator.pendingResumeRecv.toList ++
            peer.recvQueue := by
      simp only [RecvSide.unfinished, Peer.recvSide, ends, waiting,
        queue, Option.toList_none, List.append_nil]
    rw [shorter]
    exact (List.sublist_append_left _ _).subperm
  have stays
      {other : Peer} (same : other.receiver.job? = peer.receiver.job?)
      (waiting :
        other.coordinator.pendingResumeRecv =
          peer.coordinator.pendingResumeRecv)
      (queue : other.recvQueue = peer.recvQueue) :
      other.recvSide.unfinished.Subperm peer.recvSide.unfinished := by
    have equal :
        other.recvSide.unfinished = peer.recvSide.unfinished := by
      simp only [RecvSide.unfinished, Peer.recvSide, same, waiting,
        queue]
    rw [equal]
  cases effect with
  | started job rest idle queued =>
      apply List.Perm.subperm
      simp only [RecvSide.unfinished, Peer.recvSide, idle, queued,
        RecvPhase.job?, Option.toList_none, Option.toList_some,
        List.append_nil, List.append_assoc]
      exact List.Perm.append_left _ (List.perm_append_singleton job rest)
  | opened job files opened opening _ _ =>
      exact stays (congrArg RecvPhase.job? opening).symm rfl rfl
  | received current chunk loopEnd _ phase _ _ _ _ _ =>
      exact stays (congrArg RecvPhase.job? phase).symm rfl rfl
  | loopFailed current phase =>
      exact stays (congrArg RecvPhase.job? phase).symm rfl rfl
  | loopEnded current phase _ _ =>
      exact stays (congrArg RecvPhase.job? phase).symm rfl rfl
  | storedChunk current chunk rest phase _ _ =>
      exact stays (congrArg RecvPhase.job? phase).symm rfl rfl
  | writerFailed current chunk rest length phase _ =>
      exact stays (congrArg RecvPhase.job? phase).symm rfl rfl
  | reported current => exact stays rfl rfl rfl
  | closed current flushFails rehashFails _ phase _ _ _ =>
      exact stays (congrArg RecvPhase.job? phase).symm rfl rfl
  | _ => exact ended rfl rfl rfl

/-- The verdict of a receive is not a read. -/
theorem bytesAfter_verifying
    {label : RecvLabel} {current : Verifying}
    (phase : peer.receiver = .verifying current)
    (stepped : peer.recvStep label = some next)
    (received : List UInt8) :
    bytesAfter received (.recv label) = received := by
  unfold Peer.recvStep at stepped
  rw [phase] at stepped
  cases label with
  | verify renameFails => rfl
  | hashClosed => rfl
  | _ => cases stepped

/-- A completed receive leaves the bytes read at its destination, and was one
of the unfinished. -/
theorem taskStep_completes
    {label : RecvLabel} {receipt : Receipt}
    (fresh : FreshReceive peer.recvSide received)
    (stepped : peer.recvStep label = some next)
    (completes : next.receipts = peer.receipts ++ [receipt]) :
    next.files receipt.verified.job.destPath =
        some (.file (bytesAfter received (.recv label))) ∧
      peer.recvSide.unfinished.Perm
        (receipt.verified.job :: next.recvSide.unfinished) := by
  have effect := recvStep_effect stepped
  have jobs : peer.receiver.Holds fun job => job.resumeOffset = 0 :=
    fresh.jobs.active
  have ended
      {current : Verifying} (phase : peer.receiver = .verifying current)
      (same : next.coordinator = peer.coordinator)
      (queue : next.recvQueue = peer.recvQueue)
      (idle : next.receiver = .idle) :
      peer.recvSide.unfinished.Perm
        (current.job :: next.recvSide.unfinished) := by
    simp only [RecvSide.unfinished, Peer.recvSide, phase, same, queue,
      idle, RecvPhase.job?, Option.toList_none, Option.toList_some,
      List.append_nil]
    exact List.perm_append_singleton _ _
  have unchanged {goal : Prop} (same : next.receipts = peer.receipts) :
      goal := by
    rw [same] at completes
    have lengths := congrArg List.length completes
    simp at lengths
  cases effect with
  | completed verifying expectedHash rest phase _ _ direct =>
      obtain ⟨bytes, present⟩ := fresh.verifying verifying phase
      obtain rfl : ⟨verifying, expectedHash⟩ = receipt := by
        have same := List.append_cancel_left completes
        injection same
      rw [bytesAfter_verifying phase stepped]
      refine ⟨?_, ended phase rfl rfl rfl⟩
      rw [phase] at jobs
      rw [jobs.2, targetWritePath_dest direct, bytes] at present
      exact present
  | committed verifying expectedHash rest renamed phase _ _ _ moved =>
      obtain ⟨bytes, present⟩ := fresh.verifying verifying phase
      obtain rfl : ⟨verifying, expectedHash⟩ = receipt := by
        have same := List.append_cancel_left completes
        injection same
      rw [bytesAfter_verifying phase stepped]
      refine ⟨?_, ended phase rfl rfl rfl⟩
      obtain ⟨content, isContent, isRenamed, _⟩ :=
        FileStore.rename_eq_some moved
      have present :
          peer.files verifying.targetWritePath =
            some (.file verifying.stored) := present
      rw [present] at isContent
      obtain rfl : verifying.stored = content := by
        injection isContent with isNode
        injection isNode
      change renamed verifying.job.destPath = some (.file received)
      rw [isRenamed, FileStore.put_same, bytes]
  | _ => exact unchanged rfl

/-- What a step of a connection without resumes does to what is unfinished:
it adds at most the job of an accept. -/
theorem peerStep_unfinished
    {label : PeerLabel} (fresh : FreshReceive peer.recvSide received)
    (noResume :
      ∀ applied, peer.applied label = some applied →
        applied.accept.resume = false)
    (stepped : peerStep peer label = some next) :
    next.recvSide.unfinished.Subperm peer.recvSide.unfinished ∨
      ∃ applied job, peer.applied label = some applied ∧
        (∀ path ∈ job.paths, path ∈ applied.paths) ∧
          next.recvSide.unfinished.Perm
            (job :: peer.recvSide.unfinished) := by
  rcases peerStep_effect stepped with effect | ⟨recvLabel, _, effect⟩
  · rcases loopEffect_fresh fresh noResume effect with
      same | ⟨applied, job, part, isApplied, _, _, inPaths, isAfter⟩
    · rw [same]
      exact .inl (List.Subperm.refl _)
    · refine .inr ⟨applied, job, isApplied, inPaths, ?_⟩
      rw [isAfter]
      have shape :
          peer.recvSide.pendingResumeRecv.toList ++
                (peer.recvQueue ++ [job]) ++
              peer.recvSide.receiver.job?.toList =
            (peer.recvSide.pendingResumeRecv.toList ++
                peer.recvQueue) ++
              job :: peer.recvSide.receiver.job?.toList := by
        simp only [List.append_assoc, List.cons_append, List.nil_append]
      simp only [RecvSide.unfinished]
      rw [shape]
      exact List.perm_middle
  · exact .inl (taskEffect_unfinished effect)

/-- A step of a connection without resumes leaves the files alone that its
unfinished receives do not use. -/
theorem peerStep_elsewhere
    {label : PeerLabel} {path : UnixPath} {content : List UInt8}
    (fresh : FreshReceive peer.recvSide received)
    (noResume :
      ∀ applied, peer.applied label = some applied →
        applied.accept.resume = false)
    (elsewhere : ∀ job ∈ peer.recvSide.unfinished, path ∉ job.paths)
    (present : peer.files path = some (.file content))
    (stepped : peerStep peer label = some next) :
    next.files path = some (.file content) := by
  rcases peerStep_effect stepped with effect | ⟨recvLabel, _, effect⟩
  · have same : next.recvSide.files = peer.files := by
      rcases loopEffect_fresh fresh noResume effect with
        same | ⟨applied, job, part, _, _, _, _, isAfter⟩
      · rw [same]
        rfl
      · rw [isAfter]
        rfl
    exact (congrFun same path).trans present
  · refine taskEffect_present fresh.jobs.active ?_ present effect
    intro job active
    apply elsewhere job
    rw [RecvSide.unfinished, List.mem_append]
    exact .inr (Option.mem_toList.mpr active)

theorem peerStep_fresh
    {label : PeerLabel} (fresh : FreshReceive peer.recvSide received)
    (noResume :
      ∀ applied, peer.applied label = some applied →
        applied.accept.resume = false)
    (stepped : peerStep peer label = some next) :
    FreshReceive next.recvSide (bytesAfter received label) := by
  cases label with
  | recv recvLabel => exact taskStep_fresh fresh stepped
  | _ =>
      rcases peerStep_effect stepped with effect | ⟨_, isRecv, _⟩
      · rcases loopEffect_fresh fresh noResume effect with
          same | ⟨applied, job, part, _, fromZero, _, _, isAfter⟩
        · rw [same]
          exact fresh
        · rw [isAfter]
          refine
            ⟨fresh.notWaiting,
              ⟨fresh.jobs.resuming, ?_, fresh.jobs.active⟩,
              fresh.receiving, fresh.verifying⟩
          intro other member
          rcases List.mem_append.mp member with earlier | new
          · exact fresh.jobs.queued other earlier
          · rw [List.mem_singleton.mp new]
            exact fromZero
      · cases isRecv

/-- Receipts are never taken back. -/
theorem peerStep_receipts
    {label : PeerLabel} (stepped : peerStep peer label = some next) :
    peer.receipts <+: next.receipts := by
  rcases peerStep_effect stepped with effect | ⟨recvLabel, _, effect⟩
  · rw [show next.receipts = peer.receipts from
      (loopEffect_receiver effect).2]
  · cases effect with
    | completed => exact List.prefix_append _ _
    | committed => exact List.prefix_append _ _
    | _ => exact List.prefix_rfl

/-- Only the receive task completes a receive. -/
theorem peerStep_completes
    {label : PeerLabel} {receipt : Receipt}
    (fresh : FreshReceive peer.recvSide received)
    (stepped : peerStep peer label = some next)
    (completes : next.receipts = peer.receipts ++ [receipt]) :
    next.files receipt.verified.job.destPath =
        some (.file (bytesAfter received label)) ∧
      peer.recvSide.unfinished.Perm
        (receipt.verified.job :: next.recvSide.unfinished) := by
  cases label with
  | recv recvLabel => exact taskStep_completes fresh stepped completes
  | _ =>
      rcases peerStep_effect stepped with effect | ⟨_, isRecv, _⟩
      · rw [show next.receipts = peer.receipts from
          (loopEffect_receiver effect).2] at completes
        have lengths := congrArg List.length completes
        simp at lengths
      · cases isRecv

end OneConnection

/-! ## All connections -/

/-- Two receives that use no common path. -/
def RecvJob.Apart (job other : RecvJob) : Prop :=
  ∀ path ∈ job.paths, path ∉ other.paths

theorem RecvJob.Apart.symm
    {job other : RecvJob} (apart : job.Apart other) : other.Apart job :=
  fun path inOther inJob => apart path inJob inOther

/-- An open file belongs to an unfinished receive. -/
theorem target_unfinished
    {side : RecvSide} {received : List UInt8} {path : UnixPath}
    (fresh : FreshReceive side received)
    (isTarget : side.receiver.target = some path) :
    ∃ job ∈ side.unfinished, path ∈ job.paths := by
  have active := fresh.jobs.active
  have member
      {job : RecvJob} (isActive : side.receiver.job? = some job) :
      job ∈ side.unfinished := by
    rw [RecvSide.unfinished, List.mem_append]
    exact .inr (Option.mem_toList.mpr isActive)
  cases phase : side.receiver with
  | receiving current =>
      rw [phase] at active isTarget
      refine
        ⟨current.job, member (congrArg RecvPhase.job? phase), ?_⟩
      rw [← Option.some.inj isTarget, active.2]
      exact List.mem_cons_self
  | verifying current =>
      rw [phase] at active isTarget
      refine
        ⟨current.job, member (congrArg RecvPhase.job? phase), ?_⟩
      rw [← Option.some.inj isTarget, active.2]
      exact List.mem_cons_self
  | _ =>
      rw [phase] at isTarget
      cases isTarget

namespace Daemon

variable {Connection : Type}

/-- What a connection has accepted and not ended. -/
def unfinished (daemon : Daemon Connection) (connection : Connection) :
    List RecvJob :=
  (daemon.peer connection).recvSide.unfinished

/-- Every connection is sound by itself, and no two unfinished receives use a
common path. -/
structure Sound (daemon : Daemon Connection) : Prop where
  fresh :
    ∀ connection,
      FreshReceive (daemon.peer connection).recvSide
        (daemon.received connection)
  within :
    ∀ connection,
      (daemon.unfinished connection).Pairwise RecvJob.Apart
  across :
    ∀ connection other, connection ≠ other →
      ∀ job ∈ daemon.unfinished connection,
        ∀ otherJob ∈ daemon.unfinished other, job.Apart otherJob

theorem initial_sound (files : Files) :
    (initial files : Daemon Connection).Sound where
  fresh := by
    intro connection
    exact
      FreshReceive.of_closed rfl (initial_jobs files) rfl
  within := by
    intro connection
    exact List.Pairwise.nil
  across := by
    intro connection other _ job member
    cases member

/-- The job of an admitted accept is apart from all that is unfinished. -/
theorem accepted_apart
    {daemon : Daemon Connection} {applied : AppliedAccept} {job : RecvJob}
    (apart : daemon.Apart applied)
    (inPaths : ∀ path ∈ job.paths, path ∈ applied.paths)
    (connection : Connection) :
    ∀ other ∈ daemon.unfinished connection, job.Apart other := by
  intro other member path inJob
  exact
    apart.unfinished connection other member path (inPaths path inJob)

end Daemon

section Steps

variable {Connection : Type} [DecidableEq Connection]
  {daemon next : Daemon Connection} {label : Connection × PeerLabel}

theorem daemonStep_eq_some
    (stepped : daemonStep daemon label = some next) :
    peerStep (daemon.peer label.1) label.2 = some (next.peer label.1) ∧
      next.received label.1 =
        bytesAfter (daemon.received label.1) label.2 := by
  obtain ⟨peer, peerStepped, rfl⟩ := Option.map_eq_some_iff.mp stepped
  refine ⟨?_, Function.update_self _ _ _⟩
  rw [peerStepped, Daemon.peer]
  simp only [Function.update_self]

/-- A step of one connection leaves the others alone, the files apart. -/
theorem daemonStep_other
    {connection : Connection} (other : connection ≠ label.1)
    (stepped : daemonStep daemon label = some next) :
    next.peers connection = daemon.peers connection ∧
      next.received connection = daemon.received connection := by
  obtain ⟨peer, _, rfl⟩ := Option.map_eq_some_iff.mp stepped
  exact ⟨Function.update_of_ne other _ _, Function.update_of_ne other _ _⟩

theorem unfinished_other
    {connection : Connection} (other : connection ≠ label.1)
    (stepped : daemonStep daemon label = some next) :
    next.unfinished connection = daemon.unfinished connection := by
  simp only [Daemon.unfinished, Daemon.peer, Peer.recvSide,
    RecvSide.unfinished, (daemonStep_other other stepped).1]

/-- The receives that a step leaves unfinished were unfinished before, or one
of them has just been accepted. -/
theorem daemonStep_unfinished
    (sound : daemon.Sound) (admitted : AcceptsApart daemon label)
    (stepped : daemonStep daemon label = some next) :
    (next.unfinished label.1).Subperm (daemon.unfinished label.1) ∨
      ∃ applied job,
        (daemon.peer label.1).applied label.2 = some applied ∧
          daemon.Apart applied ∧
            (∀ path ∈ job.paths, path ∈ applied.paths) ∧
              (next.unfinished label.1).Perm
                (job :: daemon.unfinished label.1) := by
  have peerStepped := (daemonStep_eq_some stepped).1
  rcases peerStep_unfinished (sound.fresh label.1)
      (fun applied isApplied => (admitted applied isApplied).1)
      peerStepped with
    fewer | ⟨applied, job, isApplied, inPaths, more⟩
  · exact .inl fewer
  · exact
      .inr
        ⟨applied, job, isApplied, (admitted applied isApplied).2, inPaths,
          more⟩

/-- Every job that a step leaves unfinished is apart from the jobs of the
other connections. -/
theorem daemonStep_across
    (sound : daemon.Sound) (admitted : AcceptsApart daemon label)
    (stepped : daemonStep daemon label = some next)
    {connection : Connection} (other : connection ≠ label.1) :
    ∀ job ∈ next.unfinished label.1,
      ∀ otherJob ∈ daemon.unfinished connection, job.Apart otherJob := by
  intro job member otherJob otherMember
  have earlier (before : job ∈ daemon.unfinished label.1) :
      job.Apart otherJob :=
    sound.across label.1 connection other.symm job before otherJob
      otherMember
  rcases daemonStep_unfinished sound admitted stepped with
    fewer | ⟨applied, new, _, apart, inPaths, more⟩
  · exact earlier (fewer.subset member)
  · rcases List.mem_cons.mp (more.subset member) with rfl | before
    · exact
        Daemon.accepted_apart apart inPaths connection otherJob otherMember
    · exact earlier before

/-- A step keeps the files that no unfinished receive of its connection
uses. -/
theorem daemonStep_elsewhere
    {path : UnixPath} {content : List UInt8}
    (sound : daemon.Sound) (admitted : AcceptsApart daemon label)
    (elsewhere : ∀ job ∈ daemon.unfinished label.1, path ∉ job.paths)
    (present : daemon.files path = some (.file content))
    (stepped : daemonStep daemon label = some next) :
    next.files path = some (.file content) :=
  peerStep_elsewhere (sound.fresh label.1)
    (fun applied isApplied => (admitted applied isApplied).1) elsewhere
    present (daemonStep_eq_some stepped).1

theorem daemonStep_sound
    (sound : daemon.Sound) (admitted : AcceptsApart daemon label)
    (stepped : daemonStep daemon label = some next) : next.Sound := by
  obtain ⟨peerStepped, isReceived⟩ := daemonStep_eq_some stepped
  have apart {connection : Connection} (other : connection ≠ label.1) :
      ∀ job ∈ next.unfinished label.1,
        ∀ otherJob ∈ daemon.unfinished connection, job.Apart otherJob :=
    daemonStep_across sound admitted stepped other
  constructor
  case fresh =>
    intro connection
    by_cases same : connection = label.1
    · rw [same, isReceived]
      exact
        peerStep_fresh (sound.fresh label.1)
          (fun applied isApplied => (admitted applied isApplied).1)
          peerStepped
    · have fresh := sound.fresh connection
      obtain ⟨samePeer, sameReceived⟩ := daemonStep_other same stepped
      have kept :=
        fresh.withFiles (by
          intro path content isTarget present
          obtain ⟨job, member, inJob⟩ := target_unfinished fresh isTarget
          refine
            daemonStep_elsewhere sound admitted ?_ present stepped
          intro other otherMember inOther
          exact
            sound.across connection label.1 same job member other
              otherMember path inJob inOther)
      rw [sameReceived]
      have sameSide :
          (next.peer connection).recvSide =
            { (daemon.peer connection).recvSide with
              files := next.files } := by
        simp only [Daemon.peer, Peer.recvSide, samePeer]
      rw [sameSide]
      exact kept
  case within =>
    intro connection
    by_cases same : connection = label.1
    · rw [same]
      have symmetric {job other : RecvJob} :
          job.Apart other → other.Apart job := RecvJob.Apart.symm
      rcases daemonStep_unfinished sound admitted stepped with
        ⟨middle, permuted, fewer⟩ | ⟨applied, job, _, new, inPaths, more⟩
      · rw [← permuted.pairwise_iff symmetric]
        exact (sound.within label.1).sublist fewer
      · rw [more.pairwise_iff symmetric]
        exact
          List.Pairwise.cons (Daemon.accepted_apart new inPaths label.1)
            (sound.within label.1)
    · rw [unfinished_other same stepped]
      exact sound.within connection
  case across =>
    intro connection other different job member otherJob otherMember
    by_cases first : connection = label.1
    · subst first
      rw [unfinished_other different.symm stepped] at otherMember
      exact apart different.symm job member otherJob otherMember
    · rw [unfinished_other first stepped] at member
      by_cases second : other = label.1
      · subst second
        exact (apart first otherJob otherMember job member).symm
      · rw [unfinished_other second stepped] at otherMember
        exact
          sound.across connection other different job member otherJob
            otherMember

/-! ## Completed receives -/

/-- A completed receive of the destination is intact, and nothing unfinished
uses its path. -/
structure Daemon.Intact
    (destPath : UnixPath) (content : List UInt8)
    (daemon : Daemon Connection) : Prop where
  sound : daemon.Sound
  present : daemon.files destPath = some (.file content)
  unused :
    ∀ connection, ∀ job ∈ daemon.unfinished connection,
      destPath ∉ job.paths
  completed :
    ∃ connection, ∃ receipt ∈ (daemon.peers connection).receipts,
      receipt.verified.job.destPath = destPath

theorem daemonStep_intact
    {destPath : UnixPath} {content : List UInt8}
    (intact : daemon.Intact destPath content)
    (admitted : AcceptsApart daemon label)
    (elsewhere : AcceptsElsewhere destPath daemon label)
    (stepped : daemonStep daemon label = some next) :
    next.Intact destPath content := by
  obtain ⟨owner, receipt, isReceipt, isDest⟩ := intact.completed
  constructor
  case sound => exact daemonStep_sound intact.sound admitted stepped
  case present =>
    exact
      daemonStep_elsewhere intact.sound admitted
        (intact.unused label.1) intact.present stepped
  case unused =>
    intro connection job member
    by_cases same : connection = label.1
    · subst same
      rcases daemonStep_unfinished intact.sound admitted stepped with
        fewer | ⟨applied, new, isApplied, apart, inPaths, more⟩
      · exact intact.unused _ job (fewer.subset member)
      · rcases List.mem_cons.mp (more.subset member) with rfl | before
        · intro inJob
          apply apart.completed owner receipt isReceipt
          · rw [isDest]
            exact (elsewhere applied isApplied).symm
          · rw [isDest]
            exact inPaths destPath inJob
        · exact intact.unused _ job before
    · rw [unfinished_other same stepped] at member
      exact intact.unused connection job member
  case completed =>
    refine ⟨owner, receipt, ?_, isDest⟩
    by_cases same : owner = label.1
    · subst same
      exact
        (peerStep_receipts (daemonStep_eq_some stepped).1).subset
          isReceipt
    · rw [(daemonStep_other same stepped).1]
      exact isReceipt

theorem daemonStep_completes
    {receipt : Receipt} (sound : daemon.Sound)
    (admitted : AcceptsApart daemon label)
    (stepped : daemonStep daemon label = some next)
    (completes :
      (next.peers label.1).receipts =
        (daemon.peers label.1).receipts ++ [receipt]) :
    next.Intact receipt.verified.job.destPath
      (next.received label.1) := by
  obtain ⟨peerStepped, isReceived⟩ := daemonStep_eq_some stepped
  obtain ⟨present, ended⟩ :=
    peerStep_completes (sound.fresh label.1) peerStepped completes
  have inDest :
      receipt.verified.job.destPath ∈ receipt.verified.job.paths :=
    List.mem_cons_of_mem _ List.mem_cons_self
  constructor
  case sound => exact daemonStep_sound sound admitted stepped
  case present =>
    rw [isReceived]
    exact present
  case unused =>
    intro connection job member
    by_cases same : connection = label.1
    · subst same
      have symmetric {job other : RecvJob} :
          job.Apart other → other.Apart job := RecvJob.Apart.symm
      have within := sound.within label.1
      rw [Daemon.unfinished, ended.pairwise_iff symmetric] at within
      exact (List.pairwise_cons.mp within).1 job member _ inDest
    · rw [unfinished_other same stepped] at member
      refine
        sound.across label.1 connection (Ne.symm same) _ ?_ job member _
          inDest
      exact ended.mem_iff.mpr List.mem_cons_self
  case completed =>
    refine ⟨label.1, receipt, ?_, rfl⟩
    rw [completes]
    exact List.mem_append_right _ List.mem_cons_self

/-- While no accept takes a path that an unfinished receive uses, or stages at
the destination of a completed one, a completed receive has left the bytes
that its connection read, and they stay until the destination is accepted
again. -/
theorem concurrent_receives_intact
    {files : Files} {labels : List (Connection × PeerLabel)}
    {receipt : Receipt}
    (run :
      Run daemonStep AcceptsApart (Daemon.initial files) labels daemon)
    (admitted : AcceptsApart daemon label)
    (stepped : daemonStep daemon label = some next)
    (completes :
      (next.peers label.1).receipts =
        (daemon.peers label.1).receipts ++ [receipt]) :
    next.files receipt.verified.job.destPath =
        some (.file (next.received label.1)) ∧
      ∀ (later : Daemon Connection) (more : List (Connection × PeerLabel)),
        Run daemonStep
            (fun state label =>
              AcceptsApart state label ∧
                AcceptsElsewhere receipt.verified.job.destPath state
                  label)
            next more later →
          later.files receipt.verified.job.destPath =
            some (.file (next.received label.1)) := by
  have sound : daemon.Sound :=
    Run.preserves Daemon.Sound
      (fun _ _ _ holds isApart moved =>
        daemonStep_sound holds isApart moved)
      run (Daemon.initial_sound files)
  have intact := daemonStep_completes sound admitted stepped completes
  refine ⟨intact.present, ?_⟩
  intro later more continued
  have kept :=
    Run.preserves
      (Daemon.Intact receipt.verified.job.destPath
        (next.received label.1))
      (fun _ _ _ holds guard moved =>
        daemonStep_intact holds guard.1 guard.2 moved)
      continued intact
  exact kept.present

end Steps

/-- For two connections, what `AcceptsApart` asks of a step before either has
completed a receive. -/
def Daemon.admits
    (daemon : Daemon Bool) (label : Bool × PeerLabel) : Bool :=
  ((daemon.peer label.1).applied label.2).all fun applied =>
    !applied.accept.resume &&
      (daemon.unfinished false ++ daemon.unfinished true).all
          (fun job =>
            applied.paths.all fun path => !job.paths.contains path) &&
        ((daemon.peers false).receipts ++
          (daemon.peers true).receipts).isEmpty

theorem acceptsApart_of_admits
    {daemon : Daemon Bool} {label : Bool × PeerLabel}
    (admits : daemon.admits label = true) : AcceptsApart daemon label := by
  intro applied isApplied
  rw [Daemon.admits, isApplied] at admits
  simp only [Option.all_some, Bool.and_eq_true, Bool.not_eq_true',
    List.all_eq_true, List.isEmpty_iff, List.append_eq_nil_iff] at admits
  obtain ⟨⟨noResume, unused⟩, noneLeft, noneRight⟩ := admits
  refine ⟨noResume, ?_, ?_⟩
  · intro connection job member path inPaths inJob
    have used := unused job (by
      rw [List.mem_append]
      cases connection with
      | false => exact .inl member
      | true => exact .inr member) path inPaths
    rw [List.contains_iff_mem.mpr inJob] at used
    cases used
  · intro connection receipt member
    cases connection with
    | false =>
        rw [noneLeft] at member
        cases member
    | true =>
        rw [noneRight] at member
        cases member

/-- Two connections receive files of different names; the first one completes
while the second one is still receiving. -/
theorem concurrent_receives_intact_pair :
    ∃ next : Daemon Bool,
      next.files (components "d/a") = some (.file [7]) ∧
        next.received true = [8] ∧
          (next.peers true).receipts = [] := by
  have reached :
      (guardedReplay daemonStep
          (fun daemon label => daemon.admits label = true)
          (Daemon.initial fun _ => none)
          [(false, .control ⟨.metadata "a" 1 false true, 0⟩ .none),
            (false, .command (.acceptFile "d" true false) .none),
            (true, .control ⟨.metadata "b" 2 false true, 0⟩ .none),
            (true, .command (.acceptFile "d" true false) .none),
            (true, .recv .start),
            (false, .recv .start),
            (true, .recv (.openTarget .opened)),
            (false, .recv (.openTarget .opened)),
            (true, .recv (.receive [8])),
            (false, .recv (.receive [7])),
            (false, .recv .writeChunk),
            (false, .recv .endReceive),
            (false, .recv (.closeFile false false)),
            (false, .control ⟨.fileSent (sha256Hex [7]), 0⟩ .none)]).bind
        (fun daemon =>
          (daemonStep daemon (false, .recv (.verify false))).map
            fun next =>
              ((daemon.peers false).receipts.length,
                (next.peers false).receipts.map
                  fun receipt => receipt.verified.job.destPath,
                next.received false, next.received true,
                (next.peers true).receipts.length)) =
        some (0, [components "d/a"], [7], [8], 0) := by
    decide +kernel
  obtain ⟨daemon, ran, reached⟩ := Option.bind_eq_some_iff.mp reached
  obtain ⟨next, stepped, facts⟩ := Option.map_eq_some_iff.mp reached
  simp only [Prod.mk.injEq] at facts
  obtain ⟨noneYet, isDest, isRead, otherRead, otherNone⟩ := facts
  obtain ⟨receipt, isReceipt, isDest⟩ := List.map_eq_singleton_iff.mp isDest
  have intact :=
    concurrent_receives_intact
      ((run_of_guardedReplay ran).weaken fun _ _ => acceptsApart_of_admits)
      (acceptsApart_of_admits rfl) stepped (by
        rw [isReceipt, List.length_eq_zero_iff.mp noneYet,
          List.nil_append])
  rw [isDest, isRead] at intact
  exact ⟨next, intact.1, otherRead, List.length_eq_zero_iff.mp otherNone⟩

/-- No accept asks for a resume. -/
def ResumesNothing {Connection : Type}
    (daemon : Daemon Connection) (label : Connection × PeerLabel) : Prop :=
  ((daemon.peer label.1).applied label.2).all
    (fun applied => !applied.accept.resume) = true

instance {Connection : Type} (daemon : Daemon Connection)
    (label : Connection × PeerLabel) :
    Decidable (ResumesNothing daemon label) :=
  inferInstanceAs (Decidable (_ = true))

/-- Two connections receive a small file of one name.  The second one
truncates what the first one has written before the first compares hashes, and
the hash is that of the bytes received. -/
theorem concurrent_receive_truncated :
    ¬ ∀ (files : Files) (labels : List (Bool × PeerLabel))
        (daemon next : Daemon Bool) (label : Bool × PeerLabel)
        (receipt : Receipt),
        Run daemonStep ResumesNothing (Daemon.initial files) labels
            daemon →
          ResumesNothing daemon label →
            daemonStep daemon label = some next →
              (next.peers label.1).receipts =
                  (daemon.peers label.1).receipts ++ [receipt] →
                next.files receipt.verified.job.destPath =
                  some (.file (next.received label.1)) := by
  intro always
  have reached :
      (guardedReplay daemonStep ResumesNothing
          (Daemon.initial fun _ => none)
          [(false, .control ⟨.metadata "n" 1 false true, 0⟩ .none),
            (false, .command (.acceptFile "d" true false) .none),
            (false, .recv .start),
            (false, .recv (.openTarget .opened)),
            (false, .recv (.receive [7])),
            (false, .recv .writeChunk),
            (false, .recv .endReceive),
            (false, .recv (.closeFile false false)),
            (false, .control ⟨.fileSent (sha256Hex [7]), 0⟩ .none),
            (true, .control ⟨.metadata "n" 1 false true, 0⟩ .none),
            (true, .command (.acceptFile "d" true false) .none),
            (true, .recv .start),
            (true, .recv (.openTarget .opened))]).bind
        (fun daemon =>
          (daemonStep daemon (false, .recv (.verify false))).map
            fun next =>
              ((daemon.peers false).receipts.length,
                (next.peers false).receipts.map
                  fun receipt => receipt.verified.job.destPath,
                next.files (components "d/n"),
                next.received false)) =
        some (0, [components "d/n"], some (.file []), [7]) := by
    decide +kernel
  obtain ⟨daemon, ran, reached⟩ := Option.bind_eq_some_iff.mp reached
  obtain ⟨next, stepped, facts⟩ := Option.map_eq_some_iff.mp reached
  simp only [Prod.mk.injEq] at facts
  obtain ⟨noneYet, isDest, isEmpty, isRead⟩ := facts
  obtain ⟨receipt, isReceipt, isDest⟩ := List.map_eq_singleton_iff.mp isDest
  have intact :=
    always _ _ daemon next (false, .recv (.verify false)) receipt
      (run_of_guardedReplay ran) rfl stepped (by
        rw [isReceipt, List.length_eq_zero_iff.mp noneYet,
          List.nil_append])
  rw [isDest, isEmpty, isRead] at intact
  injection intact with isNode
  injection isNode with isContent
  cases isContent

end Quiczilla
