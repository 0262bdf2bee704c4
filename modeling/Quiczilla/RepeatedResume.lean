import Quiczilla.ExchangeCompletion
import Quiczilla.RetainedFiles
import Quiczilla.UpheldExchange

/-!
# Repeating an exchange that ended in a mismatch

A mismatch leaves in place what the receiving side had resumed.  If the
fingerprint does not tell it from the source, every repetition resumes it
again, and none of them delivers the source.
-/

namespace Quiczilla

open Foundation

/-! ## Files that are never healed -/

/-- What can be kept is no part of the source, and has its fingerprint. -/
structure Exchange.Poisoned
    (exchange : Exchange) (source : List UInt8) (files : Files) : Prop where
  same :
    fingerprintOf ((exchange.applied source.length).kept files) =
      fingerprintOf source
  apart : ¬(exchange.applied source.length).kept files <+: source

/-- The files are poisoned, and no completion has delivered the source. -/
structure Exchange.Stuck
    (exchange : Exchange) (source : List UInt8) (link : Link) : Prop where
  poisoned : exchange.Poisoned source link.right.files
  undelivered :
    .transferComplete .completed ∈ link.left.events →
      link.right.files (exchange.applied source.length).destPath ≠
        some (.file source)

section Stuck

variable {exchange : Exchange} {leftFiles rightFiles : Files}
  {source : List UInt8} {labels : List LinkLabel} {link : Link}

theorem Exchange.Poisoned.keeps
    (poisoned : exchange.Poisoned source rightFiles) :
    (exchange.applied source.length).kept rightFiles ≠ [] := by
  intro nothing
  apply poisoned.apart
  rw [nothing]
  exact List.nil_prefix

/-- More of it is poisoned as well. -/
theorem Exchange.Poisoned.of_kept
    {files : Files} (poisoned : exchange.Poisoned source rightFiles)
    (large : resumeThresholdBytes ≤ source.length)
    (isFront :
      (exchange.applied source.length).kept rightFiles <+:
        (exchange.applied source.length).kept files) :
    exchange.Poisoned source files where
  same := by
    rw [← poisoned.same]
    exact
      (fingerprintOf_front isFront
        (fingerprintSize_le_kept large poisoned.keeps)).symm
  apart more := poisoned.apart (isFront.trans more)

variable
  (large : resumeThresholdBytes ≤ source.length)
  (offers : exchange.offer.resume = true)
  (accepts : exchange.accept.resume = true)
  (isSource :
    leftFiles (components exchange.offer.path) = some (.file source))

include large offers accepts isSource

/-- An exchange of poisoned files is stuck wherever it ends. -/
theorem stuck_of_poisoned
    (poisoned : exchange.Poisoned source rightFiles)
    (run :
      Run linkStep exchange.Resumes (.initial leftFiles rightFiles) labels
        link) :
    exchange.Stuck source link where
  poisoned :=
    poisoned.of_kept large
      (kept_grows large offers accepts isSource poisoned.same run)
  undelivered completed present := by
    have keeping :=
      keeping_of_run large offers accepts isSource poisoned.keeps
        poisoned.same run
    have compares :=
      run.weaken fun _ _ resumes =>
        Exchange.compares_of_verifies resumes.1
    obtain ⟨runs, vouched⟩ := vouched_of_run large isSource compares
    have received :=
      receipts_of_completed isSource
        (run.weaken fun _ _ resumes => resumes.1.1) completed
    obtain ⟨content, isContent, ⟨unresumed, -⟩ | splices⟩ :=
      spliced_of_received large isSource runs vouched received
    · exact unresumed (resumed_of_received keeping runs received)
    · rw [present] at isContent
      have whole := splices.whole
      rw [← Node.file.inj (Option.some.inj isContent)] at whole
      exact poisoned.apart ⟨_, whole.symm⟩

end Stuck

/-- However often the exchange is repeated, it stays stuck. -/
theorem stuck_again
    {exchange : Exchange} {source : List UInt8} {link final : Link}
    {attempts : List (Files × List LinkLabel)}
    (large : resumeThresholdBytes ≤ source.length)
    (offers : exchange.offer.resume = true)
    (accepts : exchange.accept.resume = true)
    (stuck : exchange.Stuck source link)
    (run :
      Run exchange.again (exchange.SameSource source) link attempts final) :
    exchange.Stuck source final := by
  refine run.preserves (exchange.Stuck source) ?_ stuck
  intro link attempt next stuck isSource attempted
  exact
    stuck_of_poisoned large offers accepts isSource stuck.poisoned
      (run_of_guardedReplay attempted)

/-! ## Mismatches -/

/-- A step of the exchange in which no call fails and nothing is refused. -/
def Exchange.Repeats
    (exchange : Exchange) (link : Link) (label : LinkLabel) : Prop :=
  exchange.Resumes link label ∧
    label.refuses = false ∧ link.receiveWorks label = true

section Mismatches

variable {exchange : Exchange} {leftFiles rightFiles : Files}
  {source : List UInt8} {labels : List LinkLabel} {link : Link}

/-- What is verified on top of a part of the source is the source. -/
theorem verified_source
    {verifying : Verifying} {content : List UInt8}
    (accepted : exchange.Accepted rightFiles source.length link)
    (underway : exchange.Underway leftFiles link)
    (isSource :
      leftFiles (components exchange.offer.path) = some (.file source))
    (isFront :
      (exchange.applied source.length).kept rightFiles <+: source)
    (phase : link.right.receiver = .verifying verifying)
    (whole : verifying.Holds rightFiles content) : content = source := by
  have isActive : link.right.receiver.job? = some verifying.job :=
    congrArg RecvPhase.job? phase
  have isStored :
      verifying.stored = source.drop verifying.job.resumeOffset := by
    have matching := underway.bound.matching
    have genuine := underway.bound.jobs.active
    have active : link.right.recvSide.receiver = .verifying verifying :=
      phase
    rw [active] at genuine
    rw [phase] at matching
    have isPromise := (underway.promised isSource genuine.1.known).2
    rw [← isPromise]
    exact matching
  have isSettled : verifying.job ∈ link.right.recvSide.settled := by
    apply List.mem_append_left
    apply List.mem_append_right
    exact Option.mem_toList.mpr isActive
  have isContent := whole.whole
  have full := whole.kept
  rw [isStored] at isContent
  cases accepted.course with
  | fromZero _ _ fromZero =>
      have isZero := fromZero _ isSettled
      have nothing : verifying.job.kept rightFiles = [] := by
        rw [RecvJob.kept, isZero, List.take_zero]
      rw [isContent, nothing, isZero, List.drop_zero, List.nil_append]
  | waiting job waits _ _ _ _ =>
      obtain ⟨-, noneActive, -⟩ := accepted.sole.waiting waits
      have noneActive : link.right.receiver.job? = none := noneActive
      rw [noneActive] at isActive
      cases isActive
  | resumed _ _ _ _ kept =>
      have isKept := kept _ isSettled
      obtain ⟨existing, isFile, -⟩ := file_of_kept full isKept.positive
      rw [kept_of_keeps isKept isFile] at isContent full
      rw [isContent, ← full]
      exact List.prefix_iff_eq_append.mp isFront

/-- On top of a part of the source every comparison passes. -/
theorem passes_of_front
    (runs : exchange.Runs leftFiles rightFiles source.length link)
    (digested : exchange.Digested source link)
    (isSource :
      leftFiles (components exchange.offer.path) = some (.file source))
    (checksum : exchange.accept.checksum = true)
    (isFront :
      (exchange.applied source.length).kept rightFiles <+: source) :
    link.Passes := by
  intro verifying expectedHash rest phase isQueue
  rcases runs.phase with unaccepted | accepted
  · rw [unaccepted.idle] at phase
    cases phase
  · have isExpected : expectedHash = sha256Hex source := by
      apply digested.queued
      rw [isQueue]
      exact List.mem_cons_self
    have holds := accepted.sole.jobs.active
    have active : link.right.recvSide.receiver = .verifying verifying :=
      phase
    rw [active] at holds
    have isChecksum : verifying.job.checksum = true :=
      holds.1.checksum.trans checksum
    obtain ⟨content, -, whole⟩ := accepted.sole.verifying verifying phase
    have isHash :=
      (digested.checked.verifying verifying phase).hashed isChecksum
    rw [whole.hashed isChecksum,
      verified_source accepted runs.underway isSource isFront phase
        whole] at isHash
    rw [isExpected, isHash]
    exact (hashOk_sha256Hex source source).mpr rfl

/-- What a mismatch was resumed from is no part of the source. -/
theorem poisoned_of_mismatch
    (large : resumeThresholdBytes ≤ source.length)
    (sent : exchange.offer.checksum = true)
    (checksum : exchange.accept.checksum = true)
    (isSource :
      leftFiles (components exchange.offer.path) = some (.file source))
    (run :
      Run linkStep exchange.Repeats (.initial leftFiles rightFiles) labels
        link)
    (resumed : .resumeOk ∈ link.right.handled)
    (failed : .transferComplete .hashFailed ∈ link.left.events) :
    exchange.Poisoned source rightFiles := by
  obtain ⟨upheld, all⟩ :
      exchange.Upheld leftFiles rightFiles source link ∧
        ((exchange.applied source.length).kept rightFiles <+: source →
          link.AllCompleted) := by
    refine
      run.preserves
        (fun link =>
          exchange.Upheld leftFiles rightFiles source link ∧
            ((exchange.applied source.length).kept rightFiles <+: source →
              link.AllCompleted))
        ?_
        ⟨Exchange.Upheld.initial exchange leftFiles rightFiles source,
          fun _ => allCompleted_initial leftFiles rightFiles⟩
    intro link label next ⟨upheld, all⟩ ⟨resumes, accepts, works⟩ stepped
    refine ⟨upheld.step isSource resumes.1 stepped, fun isFront => ?_⟩
    have passes :=
      passes_of_front upheld.runs (upheld.digested sent) isSource checksum
        isFront
    exact
      (all isFront).step passes upheld.runs.underway.informed accepts works
        stepped
  refine ⟨(upheld.vouched large).confirmed (Or.inr resumed), ?_⟩
  intro isFront
  have isCompleted := (all isFront).reported _ (mem_reports.mpr failed)
  cases isCompleted

end Mismatches

/-- A resumed exchange with checksums that ends in a mismatch leaves the files
stuck, and from a stuck state no number of repetitions delivers the source. -/
theorem failed_resume_never_heals
    {exchange : Exchange} {leftFiles rightFiles : Files}
    {source : List UInt8}
    (large : resumeThresholdBytes ≤ source.length)
    (offers : exchange.offer.resume = true)
    (accepts : exchange.accept.resume = true)
    (isSource :
      leftFiles (components exchange.offer.path) = some (.file source)) :
    (exchange.offer.checksum = true → exchange.accept.checksum = true →
      ∀ labels link,
        Run linkStep exchange.Repeats (.initial leftFiles rightFiles) labels
            link →
          .resumeOk ∈ link.right.handled →
            .transferComplete .hashFailed ∈ link.left.events →
              exchange.Stuck source link) ∧
      ∀ stuck,
        exchange.Stuck source stuck →
          ∀ attempts final,
            Run exchange.again (exchange.SameSource source) stuck attempts
                final →
              exchange.Stuck source final := by
  constructor
  · intro sent checksum labels link run resumed failed
    exact
      stuck_of_poisoned large offers accepts isSource
        (poisoned_of_mismatch large sent checksum isSource run resumed
          failed)
        (run.weaken fun _ _ repeats => repeats.1)
  · intro stuck isStuck attempts final run
    exact stuck_again large offers accepts isStuck run

/-! ## A staging file with another end than the source -/

section Refusing

variable {exchange : Exchange} {leftFiles rightFiles : Files}
  {source whole : List UInt8} {target : KeptTarget}

/-- A comparison whose rename fails ends in the same status as a mismatch. -/
theorem told_verify_renameFails (isPart : target.usePart = true) :
    (exchange.told rightFiles source whole target).verify
        (exchange.keptVerifying source whole target) true =
      some
        ((exchange.progressed rightFiles source whole target).failReceive
          .hashFailed) := by
  have queue :
      (exchange.told rightFiles source whole target).hashQueue =
        [exchange.sentHash source] :=
    rfl
  have uncommitted :
      ∀ peer : Peer,
        peer.commit (exchange.keptVerifying source whole target) true =
          none := by
    intro peer
    rw [Peer.commit, if_pos rfl, if_pos]
    exact isPart
  simp only [Peer.verify, queue, uncommitted]
  split
  · rfl
  · rfl

/-- With another digest the comparison refuses the target, and no rename is
tried. -/
theorem told_receiveWorks
    (sent : exchange.offer.checksum = true)
    (checksum : exchange.accept.checksum = true)
    (differ : sha256Hex whole ≠ sha256Hex source) :
    (exchange.told rightFiles source whole target).receiveWorks
      (.verify true) = true := by
  have isActual :
      (exchange.keptVerifying source whole target).actualHash =
        sha256Hex whole :=
    if_pos checksum
  have refuses :
      hashOk (exchange.sentHash source)
          (exchange.keptVerifying source whole target).actualHash =
        false := by
    rw [Exchange.sentHash, if_pos sent, isActual]
    apply Bool.eq_false_of_not_eq_true
    rw [hashOk_sha256Hex]
    exact differ
  change
    (!hashOk (exchange.sentHash source)
          (exchange.keptVerifying source whole target).actualHash ||
        _ || _) =
      true
  rw [refuses]
  rfl

/-- A staging file with the fingerprint of the source is refused: by the
comparison if its digest is another, else by the rename. -/
theorem refused_run
    (prepares :
      exchange.Prepares leftFiles rightFiles source whole target)
    (isPart : target.usePart = true)
    (same : fingerprintOf whole = fingerprintOf source)
    (sent : exchange.offer.checksum = true)
    (checksum : exchange.accept.checksum = true) :
    ∃ labels link,
      Run linkStep
          (fun link label =>
            exchange.Resumes link label ∧
              (sha256Hex whole ≠ sha256Hex source →
                exchange.Repeats link label))
          (.initial leftFiles rightFiles) labels link ∧
        .resumeOk ∈ link.right.handled ∧
          .transferComplete .hashFailed ∈ link.left.events ∧
            .transferComplete .hashFailed ∈ link.right.events := by
  have refused :
      linkStep
          ⟨(exchange.sent leftFiles source).withOutbox [],
            exchange.told rightFiles source whole target⟩
          (.rightRecv (.verify true)) =
        some
          ⟨(exchange.sent leftFiles source).withOutbox [],
            (exchange.progressed rightFiles source whole
              target).failReceive .hashFailed⟩ :=
    congrArg
      (Option.map
        (Link.mk ((exchange.sent leftFiles source).withOutbox [])))
      (told_verify_renameFails isPart)
  have reported :
      Run linkStep
        (fun link label =>
          exchange.Verifies link label ∧
            (sha256Hex whole ≠ sha256Hex source →
              link.receiveWorks label = true))
        ⟨(exchange.sent leftFiles source).withOutbox [],
          exchange.told rightFiles source whole target⟩
        [.rightRecv (.verify true), .leftControl .none]
        ⟨((exchange.sent leftFiles source).withOutbox []).handleControl
            ⟨.receivedFileFailed, 0⟩ .none,
          ((exchange.progressed rightFiles source whole
            target).failReceive .hashFailed).withOutbox []⟩ := by
    refine Run.cons ⟨⟨trivial, rfl⟩, ?_⟩ refused ?_
    · exact told_receiveWorks sent checksum
    · exact Run.single ⟨⟨trivial, rfl⟩, fun _ => rfl⟩ rfl
  have told :=
    (told_run prepares same).weaken fun link label works =>
      And.intro works.1 fun _ : sha256Hex whole ≠ sha256Hex source =>
        works.2
  have run :=
    @Run.of_labels _ _ _ _
      (fun label => (label.reads && !label.refuses) = true) _ _ _
      (told.append reported)
      ((@List.all_eq_true _
        (fun label : LinkLabel => label.reads && !label.refuses) _).mp rfl)
  refine
    ⟨_, _, run.weaken ?_,
      List.mem_append_left _ (List.mem_append_right _ List.mem_cons_self),
      List.mem_append_right _ List.mem_cons_self,
      List.mem_append_right _ List.mem_cons_self⟩
  rintro link label ⟨⟨verifies, works⟩, isLabel⟩
  rw [Bool.and_eq_true, Bool.not_eq_true'] at isLabel
  exact
    ⟨⟨verifies, isLabel.1⟩, fun differ =>
      ⟨⟨verifies, isLabel.1⟩, isLabel.2, works differ⟩⟩

/-- A staging file of the size of the source that is not the source. -/
theorem Exchange.CanCommit.poisoned
    (commits : exchange.CanCommit leftFiles rightFiles source whole)
    (same : fingerprintOf whole = fingerprintOf source)
    (other : whole ≠ source) : exchange.Poisoned source rightFiles := by
  constructor
  · rw [commits.kept]
    exact same
  · rw [commits.kept]
    intro isFront
    exact other (isFront.eq_of_length commits.sized)

end Refusing

/-- Without a checksum the repetition completes, and stays stuck: it leaves the
staging file at the destination. -/
theorem failed_resume_never_heals_zeros :
    ∃ labels final,
      Run resumingExchange.again (resumingExchange.SameSource (zerosThen 0))
          (.initial (soleSource (zerosThen 0)) (stagedFiles (zerosThen 1)))
          [(soleSource (zerosThen 0), labels)] final ∧
        .transferComplete .completed ∈ final.left.events ∧
          resumingExchange.Stuck (zerosThen 0) final := by
  have commits := zerosThen_canCommit 1
  have same : fingerprintOf (zerosThen 1) = fingerprintOf (zerosThen 0) := by
    rw [fingerprintOf_zerosThen, fingerprintOf_zerosThen]
  obtain ⟨labels, final, run, completed, -⟩ :=
    staged_run commits same (fun checksum => by cases checksum)
  have stuck :
      resumingExchange.Stuck (zerosThen 0)
        (.initial (soleSource (zerosThen 0))
          (stagedFiles (zerosThen 1))) :=
    stuck_of_poisoned commits.large commits.offers commits.accepts
      commits.isSource (commits.poisoned same zerosThen_ne) (Run.refl _)
  have repeated :
      Run resumingExchange.again (resumingExchange.SameSource (zerosThen 0))
        (.initial (soleSource (zerosThen 0)) (stagedFiles (zerosThen 1)))
        [(soleSource (zerosThen 0), labels)] final :=
    Run.single commits.isSource run.guardedReplay_eq
  obtain ⟨-, stays⟩ :=
    @failed_resume_never_heals resumingExchange (soleSource (zerosThen 0))
      (stagedFiles (zerosThen 1)) (zerosThen 0) commits.large
      commits.offers commits.accepts commits.isSource
  exact
    ⟨labels, final, repeated, completed, stays _ stuck _ _ repeated⟩

/-- The file `a` is offered with resumption and a checksum. -/
def checkedExchange : Exchange where
  offer := ⟨"a", true, true⟩
  accept := ⟨"in", true, true⟩

/-- The staging file is refused: by the checksum, unless the two files collide,
when a failing rename is reported with the same status.  No repetition delivers
the source. -/
theorem refused_staging_never_heals_zeros :
    ∃ labels link,
      Run linkStep checkedExchange.Resumes
          (.initial (soleSource (zerosThen 0)) (stagedFiles (zerosThen 1)))
          labels link ∧
        (sha256Hex (zerosThen 1) ≠ sha256Hex (zerosThen 0) →
          Run linkStep checkedExchange.Repeats
            (.initial (soleSource (zerosThen 0))
              (stagedFiles (zerosThen 1)))
            labels link) ∧
          .resumeOk ∈ link.right.handled ∧
            .transferComplete .hashFailed ∈ link.left.events ∧
              .transferComplete .hashFailed ∈ link.right.events ∧
                ∀ attempts final,
                  Run checkedExchange.again
                      (checkedExchange.SameSource (zerosThen 0)) link
                      attempts final →
                    ¬(.transferComplete .completed ∈ final.left.events ∧
                      final.right.files
                          (checkedExchange.applied
                            (zerosThen 0).length).destPath =
                        some (.file (zerosThen 0))) := by
  have commits :
      checkedExchange.CanCommit (soleSource (zerosThen 0))
        (stagedFiles (zerosThen 1)) (zerosThen 0) (zerosThen 1) :=
    (zerosThen_canCommit 1).withChecksum true true
  have same : fingerprintOf (zerosThen 1) = fingerprintOf (zerosThen 0) := by
    rw [fingerprintOf_zerosThen, fingerprintOf_zerosThen]
  obtain ⟨labels, link, run, resumed, failed, failedToo⟩ :=
    refused_run commits.prepares rfl same rfl rfl
  have resumes := run.weaken fun _ _ guarded => guarded.1
  refine
    ⟨labels, link, resumes, fun differ =>
      run.weaken fun _ _ guarded => guarded.2 differ, resumed, failed,
      failedToo, ?_⟩
  intro attempts final repeated ⟨completed, present⟩
  have stuck :=
    stuck_of_poisoned commits.large commits.offers commits.accepts
      commits.isSource (commits.poisoned same zerosThen_ne) resumes
  have isStuck :=
    stuck_again commits.large commits.offers commits.accepts stuck
      repeated
  exact isStuck.undelivered completed present

end Quiczilla
