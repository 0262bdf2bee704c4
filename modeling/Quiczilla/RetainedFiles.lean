import Quiczilla.KeptFront
import Quiczilla.StagedResume

/-!
# What can be kept only grows

An exchange that resumes adds to what it has kept and takes nothing away.
Wherever it ends, the next accept can keep what this one could, and what
follows it on disk.
-/

namespace Quiczilla

open Foundation

section Retaining

variable {applied : AppliedAccept} {before files next : Files}
  {kept : List UInt8}

/-- The staging file starts with what was kept, or without one a finished file
of the offered size does. -/
inductive AppliedAccept.Retains
    (applied : AppliedAccept) (kept : List UInt8) (files : Files) : Prop
  | part (content : List UInt8) :
      files applied.partPath = some (.file content) →
      kept <+: content →
      content.length ≤ applied.size →
      fileChunkSize ∣ kept.length →
      AppliedAccept.Retains applied kept files
  | dest (content : List UInt8) :
      files applied.partPath = none →
      files applied.destPath = some (.file content) →
      kept <+: content →
      content.length = applied.size →
      AppliedAccept.Retains applied kept files

/-- The next accept can keep at least as much. -/
theorem kept_of_retains (retains : applied.Retains kept files) :
    kept <+: applied.kept files := by
  cases retains with
  | part content isPart isFront bounded whole =>
      have fits :
          content.length / fileChunkSize * fileChunkSize ≤ applied.size :=
        Nat.le_trans (Nat.div_mul_le_self _ _) bounded
      rw [kept_part isPart rfl fits]
      refine List.prefix_take_iff.mpr ⟨isFront, ?_⟩
      calc
        kept.length = kept.length / fileChunkSize * fileChunkSize :=
          (Nat.div_mul_cancel whole).symm
        _ ≤ content.length / fileChunkSize * fileChunkSize :=
          Nat.mul_le_mul_right _ (Nat.div_le_div_right isFront.length_le)
  | dest content noPart isDest isFront sized =>
      rw [kept_dest noPart isDest sized]
      exact isFront

/-- Neither path has changed. -/
theorem AppliedAccept.Retains.of_same
    (retains : applied.Retains kept files)
    (samePart : next applied.partPath = files applied.partPath)
    (sameDest : next applied.destPath = files applied.destPath) :
    applied.Retains kept next := by
  cases retains with
  | part content isPart isFront bounded whole =>
      exact .part content (samePart.trans isPart) isFront bounded whole
  | dest content noPart isDest isFront sized =>
      exact
        .dest content (samePart.trans noPart) (sameDest.trans isDest)
          isFront sized

/-- Creating the parents leaves both paths alone. -/
theorem AppliedAccept.Retains.ensured
    {job : RecvJob} {made : Files}
    (retains : applied.Retains kept files)
    (isDest : job.destPath = applied.destPath)
    (ensured : files.ensureDirectories job.ancestors = some made) :
    applied.Retains kept made := by
  obtain ⟨destApart, partApart⟩ :=
    @paths_not_ancestors job applied.accept.saveDir applied.name isDest
  have untouched {path : UnixPath} (apart : path ∉ job.ancestors) :
      made path = files path := by
    rcases FileStore.ensureDirectories_spec ensured path with
      same | ⟨member, -⟩
    · exact same
    · exact absurd member apart
  refine retains.of_same (untouched ?_) (untouched ?_)
  · rw [AppliedAccept.partPath, ← isDest]
    exact partApart
  · rw [← isDest]
    exact destApart

/-- What is on disk starts with what was kept. -/
theorem OnDisk.keeps
    {content stored : List UInt8} {size : Nat}
    (onDisk : OnDisk content kept stored size) : kept <+: content := by
  have isTaken : kept ++ stored <+: content := by
    rw [← onDisk.written]
    exact List.take_prefix _ _
  exact (List.prefix_append kept stored).trans isTaken

/-- A target that still starts with what is kept is retained. -/
theorem AppliedAccept.Retains.written
    {job : RecvJob} {content stored : List UInt8}
    (retains : applied.Retains kept files)
    (keeps : applied.Keeps before job)
    (full : kept.length = job.resumeOffset)
    (elsewhere : ∀ path, path ≠ job.targetWritePath →
      next path = files path)
    (present : next job.targetWritePath = some (.file content))
    (onDisk : OnDisk content kept stored applied.size) :
    applied.Retains kept next := by
  cases keeps with
  | part isTarget isOffset positive =>
      rw [isTarget] at present
      refine .part content present onDisk.keeps onDisk.bounded ?_
      rw [full, isOffset]
      rw [isOffset] at positive
      rw [alignedOffset_of_pos positive]
      exact Nat.dvd_mul_left _ _
  | dest noPart measured isTarget isOffset positive =>
      rw [isTarget] at present elsewhere
      have samePart := elsewhere _ applied.partPath_ne_destPath
      cases retains with
      | part other isPart isFront bounded whole =>
          exact .part other (samePart.trans isPart) isFront bounded whole
      | dest other absent isDest isFront sized =>
          refine
            .dest content (samePart.trans absent) present onDisk.keeps ?_
          have reached := onDisk.reached
          have bounded := onDisk.bounded
          omega

/-! ## The accept -/

theorem acceptEffect_retains
    {faults : Faults} {side after : RecvSide} {job : RecvJob}
    (keeps : applied.kept side.files ≠ [])
    (works : faults.truncate = false)
    (noneWaits : side.pendingResumeRecv = none)
    (effect : AcceptEffect applied faults side after)
    (waits : after.pendingResumeRecv = some job) :
    applied.Retains (applied.kept side.files) after.files := by
  cases effect with
  | small offer _ =>
      have waits : side.pendingResumeRecv = some job := waits
      rw [noneWaits] at waits
      cases waits
  | fresh offer _ =>
      have waits : side.pendingResumeRecv = some job := waits
      rw [noneWaits] at waits
      cases waits
  | keepPart offer existing _ _ positive measured uncut =>
      rcases kept_cases keeps with ⟨part, isPart, -⟩ | ⟨noPart, -⟩
      · rcases uncut with fails | impossible
        · rw [works] at fails
          cases fails
        · rw [FileStore.setLength, isPart] at impossible
          cases impossible
      · rw [FileStore.length?, noPart] at measured
        have nothing : 0 = existing := measured
        have some := pos_of_alignedOffset positive
        omega
  | cutPart offer existing cut _ _ positive measured succeeded =>
      obtain ⟨part, isPart, isCut⟩ := FileStore.setLength_eq_some succeeded
      rw [length?_file isPart] at measured
      have within := alignedOffset_le existing applied.size
      have aligned := alignedOffset_of_pos positive
      have isKept :
          applied.kept side.files =
            part.take (alignedOffset existing applied.size) := by
        simp only [AppliedAccept.kept, isPart, measured]
      have length :
          (part.take (alignedOffset existing applied.size)).length =
            alignedOffset existing applied.size :=
        List.length_take_of_le (by omega)
      rw [isKept]
      refine
        .part (part.take (alignedOffset existing applied.size)) ?_
          List.prefix_rfl ?_ ?_
      · change cut applied.partPath = _
        rw [isCut, FileStore.put_same, resized_of_le (by omega)]
      · rw [length]
        exact within.2
      · rw [length, aligned]
        exact Nat.dvd_mul_left _ _
  | keepDest offer _ _ noPart _ measured =>
      rcases kept_cases keeps with
        ⟨part, isPart, -⟩ | ⟨-, dest, isDest, sized⟩
      · rw [noPart] at isPart
        cases isPart
      · rw [kept_dest noPart isDest sized]
        exact .dest dest noPart isDest List.prefix_rfl sized

/-! ## The receive task -/

/-- A target of which something is kept is opened as it is. -/
theorem openTarget_retains
    {job : RecvJob} {made opened : Files}
    (keeps : applied.Keeps before job)
    (grounded : job.Grounded before files)
    (ensured : files.ensureDirectories job.ancestors = some made)
    (targetOpened : job.openTarget made = some opened) : opened = made := by
  have stays {node : Node}
      (present : files job.targetWritePath = some node) :
      made job.targetWritePath = some node := by
    rcases FileStore.ensureDirectories_spec ensured job.targetWritePath with
      same | ⟨-, absent, -⟩
    · exact same.trans present
    · rw [present] at absent
      cases absent
  have present : ∃ node, made job.targetWritePath = some node := by
    rcases grounded keeps.positive with
      ⟨content, present, -⟩ | ⟨length, isDirectory⟩
    · exact ⟨_, stays present⟩
    · exact ⟨_, stays isDirectory⟩
  rw [RecvJob.openTarget, if_pos keeps.positive] at targetOpened
  rcases FileStore.openWrite_eq_some targetOpened with
    ⟨same, -⟩ | ⟨absent, -⟩
  · exact same
  · obtain ⟨node, isThere⟩ := present
    rw [isThere] at absent
    cases absent

theorem taskEffect_retains
    {label : RecvLabel} {peer after : Peer} {earlier : List Receipt}
    (sole : peer.recvSide.Sole before applied earlier)
    (keeps :
      ∀ job, peer.receiver.job? = some job → applied.Keeps before job)
    (retains : applied.Retains (applied.kept before) peer.files)
    (effect : TaskEffect label peer after) :
    applied.Retains (applied.kept before) after.files := by
  have holds : peer.receiver.Holds applied.Accepts := sole.jobs.active
  have soleAfter := taskEffect_sole sole effect
  -- What the running receive has kept is what the accept could keep.
  have isKept {job : RecvJob} (isKept : applied.Keeps before job)
      (full : (job.kept before).length = job.resumeOffset) :
      job.kept before = applied.kept before := by
    obtain ⟨existing, isFile, -⟩ := file_of_kept full isKept.positive
    exact kept_of_keeps isKept isFile
  have writes {current : Receiving} {bytes : List UInt8}
      {other : Receiving} (phase : peer.receiver = .receiving current)
      (written :
        other.Written before (peer.storeBytes current bytes).files)
      (sameJob : other.job = current.job)
      (sameTarget : other.targetWritePath = current.targetWritePath) :
      applied.Retains (applied.kept before)
        (peer.storeBytes current bytes).files := by
    rw [phase] at holds
    have isJob := keeps current.job (congrArg RecvPhase.job? phase)
    obtain ⟨content, present, onDisk⟩ := written.onDisk
    have full := written.kept
    rw [sameJob] at onDisk full
    rw [isKept isJob full, holds.1.fileSize] at onDisk
    rw [isKept isJob full] at full
    rw [sameTarget, holds.2] at present
    refine retains.written isJob full ?_ present onDisk
    intro path apart
    apply FileStore.writeAt_other
    rw [holds.2]
    exact apart
  cases effect with
  | refused job made opening ensured =>
      rw [opening] at holds
      have accepts : applied.Accepts job := holds
      rcases ensured with rfl | ensured
      · exact retains
      · exact retains.ensured accepts.destPath ensured
  | seekFailed job made opened opening ensured targetOpened =>
      rw [opening] at holds
      have accepts : applied.Accepts job := holds
      have same :=
        openTarget_retains (keeps job (congrArg RecvPhase.job? opening))
          (sole.opening job opening) ensured targetOpened
      rw [same]
      exact retains.ensured accepts.destPath ensured
  | opened job made opened opening ensured targetOpened =>
      rw [opening] at holds
      have accepts : applied.Accepts job := holds
      have same :=
        openTarget_retains (keeps job (congrArg RecvPhase.job? opening))
          (sole.opening job opening) ensured targetOpened
      rw [same]
      exact retains.ensured accepts.destPath ensured
  | storedChunk current chunk rest phase _ _ =>
      have written := soleAfter.receiving _ rfl
      exact writes phase written rfl rfl
  | writerFailed current chunk rest length phase _ =>
      have written := soleAfter.receiving _ rfl
      exact writes phase written rfl rfl
  | committed current expectedHash rest renamed phase _ _ staged moved =>
      rw [phase] at holds
      obtain ⟨accepts, isTarget⟩ := holds
      obtain ⟨content, present, whole⟩ := sole.verifying current phase
      obtain ⟨movedContent, found, isMoved, -⟩ :=
        FileStore.rename_eq_some moved
      have sameContent : movedContent = content :=
        Node.file.inj (Option.some.inj (found.symm.trans present))
      have isJob := keeps current.job (congrArg RecvPhase.job? phase)
      have isPart : current.targetWritePath = applied.partPath := by
        rw [isTarget, targetWritePath_part staged, accepts.destPath,
          AppliedAccept.partPath]
      have isFront : applied.kept before <+: content := by
        rw [whole.whole, isKept isJob whole.kept]
        exact List.prefix_append _ _
      rw [isPart, accepts.destPath, sameContent] at isMoved
      refine
        .dest content ?_ ?_ isFront (whole.size.trans accepts.fileSize)
      · change renamed applied.partPath = none
        rw [isMoved, FileStore.put_other _ _ applied.partPath_ne_destPath,
          FileStore.remove_same]
      · change renamed applied.destPath = some (.file content)
        rw [isMoved, FileStore.put_same]
  | _ => exact retains

/-- Without a receive the task has nothing to do. -/
theorem taskEffect_atRest
    {label : RecvLabel} {peer after : Peer}
    (atRest : peer.recvSide.unfinished = [])
    (effect : TaskEffect label peer after) :
    after.recvSide = peer.recvSide := by
  obtain ⟨-, noneQueued, noneActive⟩ := unfinished_eq_nil.mp atRest
  have noneQueued : peer.recvQueue = [] := noneQueued
  have noneActive : peer.receiver.job? = none := noneActive
  have inactive {phase : RecvPhase} {job : RecvJob}
      (isPhase : peer.receiver = phase) (isJob : phase.job? = some job) :
      after.recvSide = peer.recvSide := by
    rw [isPhase, isJob] at noneActive
    cases noneActive
  cases effect with
  | started job rest idle queued =>
      rw [noneQueued] at queued
      cases queued
  | reported current => rfl
  | refused job made opening => exact inactive opening rfl
  | seekFailed job made opened opening => exact inactive opening rfl
  | opened job made opened opening => exact inactive opening rfl
  | received current chunk loopEnd _ phase => exact inactive phase rfl
  | loopFailed current phase => exact inactive phase rfl
  | loopEnded current phase => exact inactive phase rfl
  | storedChunk current chunk rest phase => exact inactive phase rfl
  | writerFailed current chunk rest length phase =>
      exact inactive phase rfl
  | closed current flushFails rehashFails _ phase =>
      exact inactive phase rfl
  | gaveUp current phase => exact inactive phase rfl
  | rejected current rest phase => exact inactive phase rfl
  | completed current expectedHash rest phase => exact inactive phase rfl
  | committed current expectedHash rest renamed phase =>
      exact inactive phase rfl
  | abandoned current phase => exact inactive phase rfl

end Retaining

/-! ## Runs -/

section Runs

variable {exchange : Exchange} {leftFiles rightFiles : Files}
  {source : List UInt8} {labels : List LinkLabel} {link next : Link}

/-- The files are as they were, and nothing is received, or what could be kept
is still there. -/
def Exchange.Retaining
    (exchange : Exchange) (rightFiles : Files) (size : Nat) (link : Link) :
    Prop :=
  link.right.files = rightFiles ∧ link.right.recvSide.unfinished = [] ∨
    (exchange.applied size).Retains
      ((exchange.applied size).kept rightFiles) link.right.files

/-- Whatever is received resumes what could be kept. -/
theorem keeps_of_settled
    {job : RecvJob} {size : Nat}
    (accepted : exchange.Accepted rightFiles size link)
    (keeping : link.Keeping source)
    (member : job ∈ link.right.recvSide.settled) :
    (exchange.applied size).Keeps rightFiles job := by
  cases accepted.course with
  | fromZero noneWaits notConfirmed _ =>
      rcases keeping.waits with nothing | ⟨other, waits⟩ | confirmed
      · rw [nothing] at member
        cases member
      · rw [noneWaits] at waits
        cases waits
      · exact absurd confirmed notConfirmed
  | waiting other waits _ _ _ _ =>
      obtain ⟨noneQueued, noneActive, noReceipts⟩ :=
        accepted.sole.waiting waits
      rw [RecvSide.settled, noneQueued, noneActive, noReceipts] at member
      cases member
  | resumed _ _ _ _ kept => exact kept job member

namespace Exchange.Retaining

variable
  (isSource :
    leftFiles (components exchange.offer.path) = some (.file source))
  (keeps : (exchange.applied source.length).kept rightFiles ≠ [])
  (runs : exchange.Runs leftFiles rightFiles source.length link)
  (retaining : exchange.Retaining rightFiles source.length link)

include retaining

theorem of_same
    (same : next.right.recvSide = link.right.recvSide) :
    exchange.Retaining rightFiles source.length next := by
  have files : next.right.files = link.right.files :=
    congrArg RecvSide.files same
  rw [Exchange.Retaining, same, files]
  exact retaining

include runs

theorem task
    {left right : Peer} {label : RecvLabel}
    (keeping : link.Keeping source)
    (taken : link.right.recvStep label = some right) :
    exchange.Retaining rightFiles source.length ⟨left, right⟩ := by
  rcases runs.phase with unaccepted | accepted
  · exact (Exchange.Runs.task_waits unaccepted taken).elim
  · have effect := recvStep_effect taken
    rcases retaining with ⟨files, atRest⟩ | retains
    · have same := taskEffect_atRest atRest effect
      exact
        @of_same _ rightFiles source link ⟨left, right⟩
          (Or.inl ⟨files, atRest⟩) same
    · refine Or.inr (taskEffect_retains accepted.sole ?_ retains effect)
      intro job isActive
      apply keeps_of_settled accepted keeping
      apply List.mem_append_left
      apply List.mem_append_right
      exact Option.mem_toList.mpr isActive

include isSource keeps

theorem loop
    {label : PeerLabel} {right : Peer} {outbox : List Letter}
    (after : Link.Keeping source ⟨link.left.withOutbox outbox, right⟩)
    (isLoop : label.isLoop = true)
    (arrives :
      ∀ letter faults, label = .control letter faults →
        letter ∈ link.left.outbox)
    (admitted :
      ∀ accept faults,
        label =
            .command
              (.acceptFile accept.saveDir accept.checksum accept.resume)
              faults →
          exchange.accept = accept)
    (works :
      ∀ applied, link.right.applied label = some applied →
        label.faults.truncate = false)
    (notices :
      link.left.notices =
        label.notice?.toList ++ (link.left.withOutbox outbox).notices)
    (taken : peerStep link.right label = some right) :
    exchange.Retaining rightFiles source.length
      ⟨link.left.withOutbox outbox, right⟩ := by
  have handled : right.handled = link.right.handled ++ label.message.toList :=
    loopStep_handled isLoop taken
  have unrestarted : label.message ≠ some .restartFromZero := by
    intro isRestart
    apply after.unrestarted
    change _ ∈ right.handled
    rw [handled, isRestart]
    exact List.mem_append_right _ List.mem_cons_self
  rcases peerStep_effect taken with loops | ⟨recvLabel, rfl, -⟩
  · generalize isSide : right.recvSide = side at loops
    cases loops with
    | quiet _ => exact retaining.of_same isSide
    | accepted applied faults side isApplied isFaults effect =>
        rcases runs.phase with unaccepted | accepted
        · have isOffer :=
            runs.underway.applied isSource arrives admitted isApplied
          rw [isOffer] at effect
          have isBefore : link.right.recvSide.files = rightFiles :=
            unaccepted.files
          have waits : ∃ job, side.pendingResumeRecv = some job := by
            rcases acceptEffect_job effect with
              ⟨-, job, isQueue, -⟩ | ⟨-, job, waits, -⟩
            · rcases after.waits with nothing | ⟨other, waits⟩ | confirmed
              · have noneSettled : right.recvSide.settled = [] := nothing
                rw [isSide, RecvSide.settled, isQueue] at noneSettled
                simp at noneSettled
              · exact
                  ⟨other,
                    (congrArg RecvSide.pendingResumeRecv isSide).symm.trans
                      waits⟩
              · have confirmed : .resumeOk ∈ right.handled := confirmed
                rw [handled, mem_noted (message_of_applied isApplied).1]
                  at confirmed
                exact absurd confirmed unaccepted.unconfirmed
            · exact ⟨job, waits⟩
          obtain ⟨job, waits⟩ := waits
          have fails := works applied isApplied
          rw [isFaults] at fails
          have retains :=
            acceptEffect_retains (isBefore ▸ keeps) fails
              unaccepted.noneWaits.1 effect waits
          rw [isBefore, ← congrArg RecvSide.files isSide] at retains
          exact Or.inr retains
        · rw [accepted.noAccept notices] at isApplied
          cases isApplied
    | resumed job _ _ waits =>
        rcases retaining with ⟨-, atRest⟩ | retains
        · have noneWaits := (unfinished_eq_nil.mp atRest).1
          have waits : link.right.recvSide.pendingResumeRecv = some job :=
            waits
          rw [noneWaits] at waits
          cases waits
        · have files : right.files = link.right.files :=
            congrArg RecvSide.files isSide
          refine Or.inr ?_
          rw [files]
          exact retains
    | restarted job _ isRestart _ => exact absurd isRestart unrestarted
    | recreated job partPath created _ isRestart _ _ _ =>
        exact absurd isRestart unrestarted
  · cases isLoop

theorem step
    {label : LinkLabel} (keeping : link.Keeping source)
    (after : next.Keeping source) (admitted : exchange.Admits link label)
    (stepped : linkStep link label = some next) :
    exchange.Retaining rightFiles source.length next := by
  cases linkStep_effect stepped with
  | leftCommand command faults left isSend taken =>
      exact retaining.of_same rfl
  | leftControl faults letter rest left arrived taken =>
      exact retaining.of_same rfl
  | leftEnds reason left taken => exact retaining.of_same rfl
  | leftSend label left taken => exact retaining.of_same rfl
  | rightCommand command faults right receives taken =>
      refine
        @loop _ _ _ _ _ isSource keeps runs retaining _ _ link.left.outbox
          after rfl (fun _ _ isControl => by cases isControl) ?_ ?_ rfl taken
      · intro accept others isCommand
        cases isCommand
        exact admitted.1
      · intro applied isApplied
        cases command with
        | acceptFile saveDir checksum resume => exact admitted.2
        | _ => cases isApplied
  | rightControl faults letter rest right arrived taken =>
      refine
        @loop _ _ _ _ _ isSource keeps runs retaining
          (.control letter faults) _ rest after rfl ?_
          (fun _ _ isCommand => by cases isCommand) (fun _ _ => admitted)
          (notices_of_outbox arrived) taken
      intro other others isOther
      cases isOther
      rw [arrived]
      exact List.mem_cons_self
  | rightEnds reason right taken =>
      exact
        @loop _ _ _ _ _ isSource keeps runs retaining (.loopEnds reason) _
          link.left.outbox after rfl
          (fun _ _ isControl => by cases isControl)
          (fun _ _ isCommand => by cases isCommand) (fun _ _ => rfl) rfl
          taken
  | received chunk rest right isFront taken =>
      exact retaining.task runs keeping taken
  | rightRecv label right notReceive taken =>
      exact retaining.task runs keeping taken

end Exchange.Retaining

/-- Wherever an exchange ends that can only resume, the next one can keep what
this one could, and what has been received behind it. -/
theorem kept_grows
    (large : resumeThresholdBytes ≤ source.length)
    (offers : exchange.offer.resume = true)
    (accepts : exchange.accept.resume = true)
    (isSource :
      leftFiles (components exchange.offer.path) = some (.file source))
    (same :
      fingerprintOf ((exchange.applied source.length).kept rightFiles) =
        fingerprintOf source)
    (run :
      Run linkStep exchange.Resumes (.initial leftFiles rightFiles) labels
        link) :
    (exchange.applied source.length).kept rightFiles <+:
      (exchange.applied source.length).kept link.right.files := by
  by_cases keeps : (exchange.applied source.length).kept rightFiles = []
  · rw [keeps]
    exact List.nil_prefix
  · obtain ⟨-, retaining⟩ :
        exchange.Continues leftFiles rightFiles source link ∧
          exchange.Retaining rightFiles source.length link := by
      refine
        run.preserves
          (fun link =>
            exchange.Continues leftFiles rightFiles source link ∧
              exchange.Retaining rightFiles source.length link)
          ?_
          ⟨Exchange.Continues.initial exchange leftFiles rightFiles source,
            Or.inl ⟨rfl, rfl⟩⟩
      rintro link label next ⟨continues, retaining⟩ admitted stepped
      have after :=
        continues.step large offers accepts isSource keeps same admitted
          stepped
      exact
        ⟨after,
          retaining.step isSource keeps continues.runs continues.keeping
            after.keeping admitted.1.1 stepped⟩
    rcases retaining with ⟨files, -⟩ | retains
    · rw [files]
    · exact kept_of_retains retains

end Runs

/-! ## Repetitions -/

instance (exchange : Exchange) (link : Link) (label : LinkLabel) :
    Decidable (exchange.Resumes link label) := by
  unfold Exchange.Resumes Exchange.Verifies
  infer_instance

/-- Two new peers repeat the exchange, the receiving one with the files that
the last attempt has left; no call that decides on a resume fails. -/
def Exchange.again
    (exchange : Exchange) (link : Link)
    (attempt : Files × List LinkLabel) : Option Link :=
  guardedReplay linkStep exchange.Resumes
    (.initial attempt.1 link.right.files) attempt.2

/-- The source is as it was. -/
def Exchange.SameSource
    (exchange : Exchange) (source : List UInt8) (_ : Link)
    (attempt : Files × List LinkLabel) : Prop :=
  attempt.1 (components exchange.offer.path) = some (.file source)

/-- However often the exchange is repeated, and wherever each attempt ends, no
byte is lost of what could be kept at first. -/
theorem repeated_exchanges_keep
    {exchange : Exchange} {source : List UInt8} {link final : Link}
    {attempts : List (Files × List LinkLabel)}
    (large : resumeThresholdBytes ≤ source.length)
    (offers : exchange.offer.resume = true)
    (accepts : exchange.accept.resume = true)
    (keeps : (exchange.applied source.length).kept link.right.files ≠ [])
    (same :
      fingerprintOf
          ((exchange.applied source.length).kept link.right.files) =
        fingerprintOf source)
    (run :
      Run exchange.again (exchange.SameSource source) link attempts final) :
    (exchange.applied source.length).kept link.right.files <+:
      (exchange.applied source.length).kept final.right.files := by
  have seen := fingerprintSize_le_kept large keeps
  refine
    run.preserves
      (fun reached =>
        (exchange.applied source.length).kept link.right.files <+:
          (exchange.applied source.length).kept reached.right.files)
      ?_ List.prefix_rfl
  intro reached attempt next isFront isSource attempted
  have stillSame :
      fingerprintOf
          ((exchange.applied source.length).kept reached.right.files) =
        fingerprintOf source := by
    rw [← same]
    exact (fingerprintOf_front isFront seen).symm
  exact
    isFront.trans
      (kept_grows large offers accepts isSource stillSame
        (run_of_guardedReplay attempted))

/-- A staging file that only shares its first 64 KiB with the source is
committed as it is. -/
theorem repeated_exchanges_keep_zeros :
    ∃ labels final,
      Run resumingExchange.again (resumingExchange.SameSource (zerosThen 0))
          (.initial (soleSource (zerosThen 0)) (stagedFiles (zerosThen 1)))
          [(soleSource (zerosThen 0), labels)] final ∧
        .transferComplete .completed ∈ final.left.events ∧
          zerosThen 1 <+:
            (resumingExchange.applied (zerosThen 0).length).kept
              final.right.files := by
  have commits := zerosThen_canCommit 1
  have same : fingerprintOf (zerosThen 1) = fingerprintOf (zerosThen 0) := by
    rw [fingerprintOf_zerosThen, fingerprintOf_zerosThen]
  obtain ⟨labels, final, run, completed, -⟩ :=
    staged_run commits same (fun checksum => by cases checksum)
  have repeated :
      Run resumingExchange.again (resumingExchange.SameSource (zerosThen 0))
        (.initial (soleSource (zerosThen 0)) (stagedFiles (zerosThen 1)))
        [(soleSource (zerosThen 0), labels)] final :=
    Run.single commits.isSource run.guardedReplay_eq
  have isFront :=
    repeated_exchanges_keep commits.large commits.offers commits.accepts
      commits.keeps ((congrArg fingerprintOf commits.kept).trans same)
      repeated
  have isKept :
      zerosThen 1 <+:
        (resumingExchange.applied (zerosThen 0).length).kept
          (stagedFiles (zerosThen 1)) := by
    rw [commits.kept]
  exact ⟨labels, final, repeated, completed, isKept.trans isFront⟩

end Quiczilla
