import Quiczilla.ExchangeFlags
import Quiczilla.InterruptedExchanges
import Quiczilla.KeptDestination

/-!
# What has been received is not sent again

An exchange that broke off leaves a front of the source.  If both sides want to
resume, the next one offers to keep all of it that fills whole chunks; the
sending side finds its own fingerprint and sends the rest only.
-/

namespace Quiczilla

open Foundation

/-! ## Fingerprints of fronts -/

section Fingerprints

variable {source front : List UInt8} {files : Files} {path : UnixPath}

theorem fingerprintOf_front
    (isFront : front <+: source)
    (seen : resumeFingerprintSize ≤ front.length) :
    fingerprintOf front = fingerprintOf source := by
  rw [fingerprintOf, List.prefix_iff_eq_take.mp isFront, List.take_take,
    Nat.min_eq_left seen, fingerprintOf]

theorem prefixHash_of_file (present : files path = some (.file front)) :
    computePrefixHash files path resumeFingerprintSize =
      some (fingerprintOf front) := by
  rw [computePrefixHash, FileStore.content?_eq_some.mpr present]
  rfl

end Fingerprints

/-! ## The accept -/

section Accepting

variable {applied : AppliedAccept} {before : Files}

/-- Something is kept of a staging file that fills a chunk, and of a finished
file. -/
theorem kept_cases (keeps : applied.kept before ≠ []) :
    (∃ part,
      before applied.partPath = some (.file part) ∧
        0 < alignedOffset part.length applied.size) ∨
      before applied.partPath = none ∧
        ∃ dest, before applied.destPath = some (.file dest) ∧
          dest.length = applied.size := by
  unfold AppliedAccept.kept at keeps
  split at keeps
  · rename_i part isPart
    refine Or.inl ⟨part, isPart, Nat.pos_of_ne_zero fun nothing => ?_⟩
    rw [nothing, List.take_zero] at keeps
    exact keeps rfl
  · exact absurd rfl keeps
  · rename_i noPart
    refine Or.inr ⟨noPart, ?_⟩
    split at keeps
    · rename_i dest isDest
      by_cases sized : dest.length = applied.size
      · exact ⟨dest, isDest, sized⟩
      · rw [if_neg sized] at keeps
        exact absurd rfl keeps
    · exact absurd rfl keeps

/-- What can be kept has as many bytes as its fingerprint looks at. -/
theorem fingerprintSize_le_kept
    (large : resumeThresholdBytes ≤ applied.size)
    (keeps : applied.kept before ≠ []) :
    resumeFingerprintSize ≤ (applied.kept before).length := by
  rcases kept_cases keeps with
    ⟨part, isPart, positive⟩ | ⟨noPart, dest, isDest, sized⟩
  · have aligned := alignedOffset_of_pos positive
    have within := (alignedOffset_le part.length applied.size).1
    have isKept :
        applied.kept before =
          part.take (alignedOffset part.length applied.size) := by
      simp only [AppliedAccept.kept, isPart]
    rw [isKept, List.length_take_of_le within, aligned]
    rw [aligned] at positive
    exact fingerprintSize_le_chunks positive
  · rw [kept_dest noPart isDest sized, sized]
    exact Nat.le_trans (by decide) large

/-- What waits to be kept has the fingerprint of what can be kept. -/
theorem acceptEffect_prefixHash
    {faults : Faults} {side next : RecvSide} {job : RecvJob}
    (keeps : applied.kept side.files ≠ [])
    (noneWaits : side.pendingResumeRecv = none)
    (effect : AcceptEffect applied faults side next)
    (waits : next.pendingResumeRecv = some job) :
    computePrefixHash next.files job.targetWritePath
        resumeFingerprintSize =
      some (fingerprintOf (applied.kept side.files)) := by
  -- The staging file, if it is what is offered.
  have staged {existing : Nat}
      (measured : (side.files.length? applied.partPath).getD 0 = existing)
      (positive : 0 < alignedOffset existing applied.size) :
      ∃ part, side.files applied.partPath = some (.file part) ∧
        part.length = existing ∧
          applied.kept side.files =
            part.take (alignedOffset existing applied.size) := by
    rcases kept_cases keeps with ⟨part, isPart, -⟩ | ⟨noPart, -⟩
    · rw [length?_file isPart] at measured
      refine ⟨part, isPart, measured, ?_⟩
      simp only [AppliedAccept.kept, isPart, measured]
    · rw [FileStore.length?, noPart] at measured
      have nothing : 0 = existing := measured
      have some := pos_of_alignedOffset positive
      omega
  cases effect with
  | small offer _ =>
      have waits : side.pendingResumeRecv = some job := waits
      rw [noneWaits] at waits
      cases waits
  | fresh offer _ =>
      have waits : side.pendingResumeRecv = some job := waits
      rw [noneWaits] at waits
      cases waits
  | keepPart offer existing large _ positive measured _ =>
      obtain ⟨part, isPart, -, isKept⟩ := staged measured positive
      have isFront : applied.kept side.files <+: part := by
        rw [isKept]
        exact List.take_prefix _ _
      cases waits
      rw [job_target_part,
        fingerprintOf_front isFront (fingerprintSize_le_kept large keeps)]
      exact prefixHash_of_file isPart
  | cutPart offer existing cut _ _ positive measured succeeded =>
      obtain ⟨part, isPart, isLength, isKept⟩ := staged measured positive
      have within := (alignedOffset_le existing applied.size).1
      obtain ⟨content, present, isCut⟩ :=
        FileStore.setLength_eq_some succeeded
      rw [isPart] at present
      cases present
      have isNow :
          cut applied.partPath =
            some (.file (applied.kept side.files)) := by
        rw [isCut, FileStore.put_same, isKept, resized_of_le (by omega)]
      cases waits
      rw [job_target_part]
      exact prefixHash_of_file isNow
  | keepDest offer _ _ noPart _ measured =>
      rcases kept_cases keeps with
        ⟨part, isPart, -⟩ | ⟨-, dest, isDest, same⟩
      · rw [noPart] at isPart
        cases isPart
      · cases waits
        rw [job_target_dest, kept_dest noPart isDest same]
        exact prefixHash_of_file isDest

/-- If both sides want to resume, what can be kept is offered. -/
theorem handleAccept_keeps
    {peer : Peer} {faults : Faults}
    (large : resumeThresholdBytes ≤ applied.size)
    (flag : peer.coordinator.offeredResume = true)
    (resume : applied.accept.resume = true)
    (measures : faults.metadata = false)
    (keeps : applied.kept peer.files ≠ []) :
    ∃ job,
      (peer.handleAccept applied.accept applied.name applied.size
            faults).coordinator.pendingResumeRecv =
        some job := by
  have wants :
      (peer.coordinator.offeredResume && applied.accept.resume) = true := by
    rw [flag, resume]
    rfl
  have length (path : UnixPath) :
      peer.lengthOrZero path faults = (peer.files.length? path).getD 0 := by
    rw [Peer.lengthOrZero, measures]
    exact if_neg Bool.false_ne_true
  simp only [Peer.handleAccept]
  rw [if_pos large, if_pos wants]
  rcases kept_cases keeps with
    ⟨part, isPart, positive⟩ | ⟨noPart, dest, isDest, sized⟩
  · have isPart :
        peer.files
            (getPartPath
              (destinationPath applied.accept.saveDir applied.name)) =
          some (.file part) := isPart
    have isPresent :
        peer.files.isPresent
            (getPartPath
              (destinationPath applied.accept.saveDir applied.name)) =
          true := by
      rw [FileStore.isPresent, isPart]
      rfl
    rw [if_pos isPresent, length, length?_file isPart, if_pos positive]
    exact ⟨_, rfl⟩
  · have noPart :
        peer.files
            (getPartPath
              (destinationPath applied.accept.saveDir applied.name)) =
          none := noPart
    have isDest :
        peer.files (destinationPath applied.accept.saveDir applied.name) =
          some (.file dest) := isDest
    have isAbsent :
        ¬peer.files.isPresent
            (getPartPath
              (destinationPath applied.accept.saveDir applied.name)) =
          true := by
      rw [FileStore.isPresent, noPart]
      exact Bool.false_ne_true
    have isWhole :
        (peer.files.isPresent
            (destinationPath applied.accept.saveDir applied.name) &&
          peer.lengthOrZero
              (destinationPath applied.accept.saveDir applied.name)
              faults == applied.size) = true := by
      rw [FileStore.isPresent, isDest, length, length?_file isDest, sized]
      simp
    rw [if_neg isAbsent, if_pos isWhole]
    exact ⟨_, rfl⟩

end Accepting

/-! ## The flag of the offer -/

section Flags

variable {peer next : Peer} {label : PeerLabel}

/-- `METADATA` sets the flag. -/
theorem metadata_offeredResume
    {name : String} {size : Nat} {resume checksum : Bool} {offer : Nat}
    {faults : Faults}
    (stepped :
      peerStep peer
          (.control ⟨.metadata name size resume checksum, offer⟩ faults) =
        some next) :
    next.coordinator.offeredResume = resume := by
  rw [peerStep_control stepped]
  change
    (peer.handleMetadata name size resume checksum offer
        faults).coordinator.offeredResume = resume
  unfold Peer.handleMetadata
  split
  · exact handleAccept_offeredResume _ _ _ _ _
  · rfl

/-- The flag belongs to the offer that is held. -/
theorem loopStep_held
    (isLoop : label.isLoop = true)
    (told :
      ∀ name size resume checksum,
        label.message = some (.metadata name size resume checksum) →
          resume = true)
    (flagged :
      peer.held ≠ none → peer.coordinator.offeredResume = true)
    {faults : Faults}
    (effect : AnsweringEffect peer label.notice? faults next)
    (stepped : peerStep peer label = some next)
    (isHeld : next.held ≠ none) :
    next.coordinator.offeredResume = true := by
  rcases loopStep_offeredResume isLoop stepped with
    same | ⟨name, size, checksum, isMessage⟩
  · -- The offer that is held now was held before, or has just arrived.
    have kept (isNext : next.held = peer.held) :
        next.coordinator.offeredResume = true := by
      rw [isNext] at isHeld
      rw [same]
      exact flagged isHeld
    cases effect with
    | quiet noOffer isNext => exact kept (congrArg Answering.held isNext)
    | held offer isOffer isNext =>
        cases label with
        | control letter others =>
            obtain ⟨message, number⟩ := letter
            cases message with
            | metadata name size resume checksum =>
                rw [metadata_offeredResume stepped]
                exact told name size resume checksum rfl
            | _ => cases isOffer
        | _ => cases isOffer
    | accepted offer job grants isFor fromZero isNext =>
        exact absurd (congrArg Answering.held isNext) isHeld
    | resumed offer job grants isFor positive fits isNext =>
        exact absurd (congrArg Answering.held isNext) isHeld
    | withdrawn noNotice isNext =>
        exact absurd (congrArg Answering.held isNext) isHeld
    | confirmed job isConfirmation waits isNext =>
        exact kept (congrArg Answering.held isNext)
    | restarted number job isRestart waits isNext =>
        exact kept (congrArg Answering.held isNext)
  · exact told name size _ checksum isMessage

/-- An accept is `handle_accept` with the flag of its offer. -/
theorem loopStep_accepts
    {applied : AppliedAccept}
    (told :
      ∀ name size resume checksum,
        label.message = some (.metadata name size resume checksum) →
          resume = true)
    (flagged :
      peer.held ≠ none → peer.coordinator.offeredResume = true)
    (isApplied : peer.applied label = some applied)
    (stepped : peerStep peer label = some next) :
    ∃ before : Peer,
      before.files = peer.files ∧
        before.coordinator.offeredResume = true ∧
          next.coordinator =
            (before.handleAccept applied.accept applied.name applied.size
              label.faults).coordinator := by
  unfold Peer.applied at isApplied
  split at isApplied
  · rename_i name size resume checksum number faults
    obtain ⟨accept, isAccept, rfl⟩ := Option.map_eq_some_iff.mp isApplied
    refine
      ⟨((peer.recordOffer name size resume checksum number).setPendingAccept
          none).clearOffer, rfl, told name size resume checksum rfl, ?_⟩
    rw [peerStep_control stepped]
    change
      (peer.handleMetadata name size resume checksum number
        faults).coordinator = _
    rw [Peer.handleMetadata, isAccept]
    rfl
  · rename_i saveDir checksum resume faults
    split at isApplied
    · rename_i name size isName isSize
      cases isApplied
      have isHeld : peer.held ≠ none := by
        rw [Peer.held, isName, isSize]
        exact Option.some_ne_none _
      refine ⟨peer.clearOffer, rfl, flagged isHeld, ?_⟩
      rw [peerStep_command stepped, Peer.handleCommand,
        Peer.handleAcceptFile, isName, isSize]
      rfl
    · cases isApplied
  · cases isApplied

end Flags

/-! ## Refusals -/

/-- What is refused has been asked for, with another fingerprint. -/
theorem offeringEffect_refutes
    {peer next : Peer} {answer : Option Answer} {faults : Faults}
    {told : Nat}
    (effect : OfferingEffect peer answer faults next.offering)
    (isRefused : .restart told ∈ next.notices) :
    .restart told ∈ peer.notices ∨
      ∃ number offset prefixHash pending,
        answer = some (.resumeReady number offset prefixHash) ∧
          peer.coordinator.pendingSendPath = some pending ∧
            peer.fingerprint (components pending.path) faults ≠
              prefixHash := by
  change .restart told ∈ next.offering.notices at isRefused
  cases effect with
  | quiet noAnswer isNext =>
      rw [isNext] at isRefused
      exact Or.inl isRefused
  | announced pending size noAnswer measured isNext =>
      rw [isNext] at isRefused
      rcases List.mem_append.mp isRefused with earlier | last
      · exact Or.inl earlier
      · cases List.mem_singleton.mp last
  | started taken pending isTaken waits fromZero isNext =>
      rw [isNext] at isRefused
      exact Or.inl isRefused
  | confirmed number offset prefixHash pending isTaken waits positive agree
      isNext =>
      rw [isNext] at isRefused
      rcases List.mem_append.mp isRefused with earlier | last
      · exact Or.inl earlier
      · cases List.mem_singleton.mp last
  | refuted number offset prefixHash pending isTaken waits positive other
      isNext =>
      exact
        Or.inr ⟨number, offset, prefixHash, pending, isTaken, waits, other⟩

/-- A task that has nothing to do leaves the files alone. -/
theorem taskEffect_waits
    {label : RecvLabel} {peer next : Peer}
    (noneActive : peer.receiver.job? = none)
    (effect : TaskEffect label peer next) :
    next.files = peer.files := by
  have inactive {phase : RecvPhase} {job : RecvJob}
      (isPhase : peer.receiver = phase) (isJob : phase.job? = some job) :
      next.files = peer.files := by
    rw [isPhase, isJob] at noneActive
    cases noneActive
  cases effect with
  | started job rest idle queued => rfl
  | refused job made opening => exact inactive opening rfl
  | seekFailed job made opened opening => exact inactive opening rfl
  | opened job made opened opening => exact inactive opening rfl
  | storedChunk current chunk rest phase => exact inactive phase rfl
  | writerFailed current chunk rest length phase =>
      exact inactive phase rfl
  | committed current expectedHash rest renamed phase =>
      exact inactive phase rfl
  | _ => rfl

/-! ## Runs -/

/-- What waits has the fingerprint of the source, and something waits or was
confirmed before anything is settled. -/
structure Peer.Awaiting (source : List UInt8) (right : Peer) : Prop where
  waits :
    right.recvSide.settled = [] ∨
      (∃ job, right.coordinator.pendingResumeRecv = some job) ∨
        .resumeOk ∈ right.handled
  present :
    ∀ job, right.coordinator.pendingResumeRecv = some job →
      computePrefixHash right.files job.targetWritePath
          resumeFingerprintSize =
        some (fingerprintOf source)

/-- What is kept waits for its confirmation or has it, and nothing is
refused. -/
structure Link.Keeping (source : List UInt8) (link : Link) : Prop
    extends link.right.Awaiting source where
  flagged :
    link.right.held ≠ none →
      link.right.coordinator.offeredResume = true
  asked :
    ∀ number offset hash,
      .resumeReady number offset hash ∈ link.right.answers →
        hash = some (fingerprintOf source)
  unrefused : ∀ told, .restart told ∉ link.left.notices
  unrestarted : .restartFromZero ∉ link.right.handled

namespace Link.Keeping

variable {exchange : Exchange} {leftFiles rightFiles : Files}
  {source : List UInt8} {link next : Link}

theorem initial (source : List UInt8) (leftFiles rightFiles : Files) :
    (Link.initial leftFiles rightFiles).Keeping source where
  flagged isHeld := absurd rfl isHeld
  waits := Or.inl rfl
  present _ waits := by cases waits
  asked _ _ _ member := by cases member
  unrefused _ member := by cases member
  unrestarted member := by cases member

/-- The sending side finds its own fingerprint. -/
theorem unrefuses
    {left : Peer} {answer : Option Answer} {faults : Faults}
    (keeping : link.Keeping source)
    (underway : exchange.Underway leftFiles link)
    (isSource :
      leftFiles (components exchange.offer.path) = some (.file source))
    (asked : ∀ taken, answer = some taken → taken ∈ link.right.answers)
    (works : answer ≠ none → faults.fingerprint = false)
    (effect : OfferingEffect link.left answer faults left.offering) :
    ∀ told, .restart told ∉ left.notices := by
  intro told isRefused
  rcases offeringEffect_refutes effect isRefused with
    earlier | ⟨number, offset, prefixHash, pending, isTaken, waits, other⟩
  · exact keeping.unrefused told earlier
  · have succeeds : faults.fingerprint = false := by
      apply works
      rw [isTaken]
      exact Option.some_ne_none _
    have isContent :
        link.left.files (components pending.path) = some (.file source) := by
      rw [(underway.once.asked pending waits).2.1, underway.sources]
      exact isSource
    apply other
    rw [keeping.asked number offset prefixHash (asked _ isTaken),
      Peer.fingerprint, succeeds, if_neg Bool.false_ne_true,
      computePrefixHash, FileStore.content?_eq_some.mpr isContent]
    rfl

/-- A step of the sending side changes its notices only. -/
theorem sending
    {left : Peer} {outbox : List Letter} (keeping : link.Keeping source)
    (fewer :
      ∀ answer ∈ (link.right.withOutbox outbox).answers,
        answer ∈ link.right.answers)
    (unrefused : ∀ told, .restart told ∉ left.notices) :
    Link.Keeping source ⟨left, link.right.withOutbox outbox⟩ where
  flagged := keeping.flagged
  waits := keeping.waits
  present := keeping.present
  asked number offset hash member :=
    keeping.asked number offset hash (fewer _ member)
  unrefused := unrefused
  unrestarted := keeping.unrestarted

/-- The receive task settles nothing, and waits while something waits. -/
theorem task_awaiting
    {right : Peer} {label : RecvLabel} {applied : AppliedAccept}
    (keeping : link.Keeping source)
    (sole : link.right.recvSide.Sole rightFiles applied [])
    (taken : link.right.recvStep label = some right) :
    right.Awaiting source := by
  have effect := recvStep_effect taken
  have sameLoop := taskEffect_coordinator effect
  constructor
  case waits =>
    rw [sameLoop, recvStep_handled taken]
    refine keeping.waits.imp_left fun nothing => ?_
    apply List.eq_nil_iff_forall_not_mem.mpr
    intro job member
    have earlier := taskEffect_settled effect job member
    rw [nothing] at earlier
    cases earlier
  case present =>
    intro job waits
    have waits : link.right.coordinator.pendingResumeRecv = some job := by
      rw [← sameLoop]
      exact waits
    obtain ⟨-, noneActive, -⟩ := sole.waiting waits
    rw [taskEffect_waits noneActive effect]
    exact keeping.present job waits

/-- A step of the receive task, and of what the sending side has in transit. -/
theorem task
    {left right : Peer} {label : RecvLabel} {applied : AppliedAccept}
    (keeping : link.Keeping source)
    (sole : link.right.recvSide.Sole rightFiles applied [])
    (notices : left.notices = link.left.notices)
    (taken : link.right.recvStep label = some right) :
    Link.Keeping source ⟨left, right⟩ := by
  have sameLoop := taskEffect_coordinator (recvStep_effect taken)
  have answering := recvStep_answering taken
  have sameHeld : right.held = link.right.held :=
    congrArg Answering.held answering
  have sameAnswers : right.answers = link.right.answers :=
    congrArg Answering.answers answering
  constructor
  case flagged =>
    rw [sameHeld, sameLoop]
    exact keeping.flagged
  case toAwaiting => exact keeping.task_awaiting sole taken
  case asked =>
    rw [sameAnswers]
    exact keeping.asked
  case unrefused =>
    rw [notices]
    exact keeping.unrefused
  case unrestarted =>
    rw [recvStep_handled taken]
    exact keeping.unrestarted

/-- A step of the loop that neither accepts nor restarts anything. -/
theorem continues_awaiting
    {label : PeerLabel} {right : Peer} (keeping : link.Keeping source)
    (isLoop : label.isLoop = true)
    (noAccept : link.right.applied label = none)
    (unrestarted : label.message ≠ some .restartFromZero)
    (taken : peerStep link.right label = some right) :
    right.Awaiting source := by
  have handled := loopStep_handled isLoop taken
  rcases peerStep_effect taken with loops | ⟨recvLabel, rfl, _⟩
  · have settles :
        right.recvSide = link.right.recvSide ∨
          right.coordinator.pendingResumeRecv = none ∧
            label.message = some .resumeOk := by
      generalize isSide : right.recvSide = side at loops
      cases loops with
      | quiet _ => exact Or.inl rfl
      | accepted other faults side isOther _ _ =>
          rw [noAccept] at isOther
          cases isOther
      | resumed job _ isConfirmation _ =>
          exact
            Or.inr
              ⟨congrArg RecvSide.pendingResumeRecv isSide, isConfirmation⟩
      | restarted job _ isRestart _ => exact absurd isRestart unrestarted
      | recreated job partPath created _ isRestart _ _ _ =>
          exact absurd isRestart unrestarted
    rcases settles with same | ⟨noneWaits, isConfirmation⟩
    · have files : right.files = link.right.files :=
        congrArg RecvSide.files same
      have waiting :
          right.coordinator.pendingResumeRecv =
            link.right.coordinator.pendingResumeRecv :=
        congrArg RecvSide.pendingResumeRecv same
      constructor
      · rw [same, waiting, handled]
        exact
          keeping.waits.imp_right (Or.imp_right (List.mem_append_left _))
      · rw [files, waiting]
        exact keeping.present
    · constructor
      · rw [handled, isConfirmation]
        exact
          Or.inr
            (Or.inr (List.mem_append_right _ List.mem_cons_self))
      · rw [noneWaits]
        nofun
  · cases isLoop

/-- The accept waits for what it keeps. -/
theorem accepts_awaiting
    {label : PeerLabel} {right : Peer} {applied : AppliedAccept}
    (keeping : link.Keeping source)
    (large : resumeThresholdBytes ≤ source.length)
    (accepts : exchange.accept.resume = true)
    (keeps : (exchange.applied source.length).kept rightFiles ≠ [])
    (same :
      fingerprintOf ((exchange.applied source.length).kept rightFiles) =
        fingerprintOf source)
    (unaccepted : link.Unaccepted rightFiles)
    (flags :
      ∀ name size resume checksum,
        label.message = some (.metadata name size resume checksum) →
          resume = true)
    (measures : label.faults.metadata = false)
    (isOffer : applied = exchange.applied source.length)
    (isApplied : link.right.applied label = some applied)
    (taken : peerStep link.right label = some right) :
    right.Awaiting source := by
  rw [isOffer] at isApplied
  constructor
  case waits =>
    obtain ⟨before, files, flag, isNext⟩ :=
      loopStep_accepts flags keeping.flagged isApplied taken
    have isBefore : before.files = rightFiles :=
      files.trans unaccepted.files
    obtain ⟨job, waits⟩ :=
      handleAccept_keeps large flag accepts measures (isBefore ▸ keeps)
    rw [← isNext] at waits
    exact Or.inr (Or.inl ⟨job, waits⟩)
  case present =>
    intro job waits
    have isFiles : link.right.recvSide.files = rightFiles :=
      unaccepted.files
    have isPrefix :=
      acceptEffect_prefixHash (isFiles ▸ keeps) unaccepted.noneWaits.1
        (peerStep_accepts isApplied taken) waits
    rw [isFiles, same] at isPrefix
    exact isPrefix

section Steps

variable
  (large : resumeThresholdBytes ≤ source.length)
  (offers : exchange.offer.resume = true)
  (accepts : exchange.accept.resume = true)
  (isSource :
    leftFiles (components exchange.offer.path) = some (.file source))
  (keeps : (exchange.applied source.length).kept rightFiles ≠ [])
  (same :
    fingerprintOf ((exchange.applied source.length).kept rightFiles) =
      fingerprintOf source)
  (runs : exchange.Runs leftFiles rightFiles source.length link)
  (keeping : link.Keeping source)

include large offers accepts isSource keeps same runs keeping

/-- A step of the receiving loop. -/
theorem loop
    {label : PeerLabel} {right : Peer} {outbox : List Letter}
    (isLoop : label.isLoop = true)
    (arrives :
      ∀ letter faults, label = .control letter faults →
        letter ∈ link.left.outbox)
    (told :
      ∀ name size resume checksum,
        label.message = some (.metadata name size resume checksum) →
          exchange.Tells name resume checksum)
    (admitted :
      ∀ accept faults,
        label =
            .command
              (.acceptFile accept.saveDir accept.checksum accept.resume)
              faults →
          exchange.accept = accept)
    (measures : label.faults.metadata = false)
    (hashes : label.faults.fingerprint = false)
    (notices :
      link.left.notices =
        label.notice?.toList ++ (link.left.withOutbox outbox).notices)
    (taken : peerStep link.right label = some right)
    (effect :
      AnsweringEffect link.right label.notice? label.faults right) :
    Link.Keeping source ⟨link.left.withOutbox outbox, right⟩ := by
  have flags (name : String) (size : Nat) (resume checksum : Bool)
      (isMessage :
        label.message = some (.metadata name size resume checksum)) :
      resume = true := by
    rw [(told name size resume checksum isMessage).resume]
    exact offers
  have handled := loopStep_handled isLoop taken
  have unrestarted : label.message ≠ some .restartFromZero := by
    intro isRestart
    obtain ⟨number, isNotice⟩ := notice?_restart.mpr isRestart
    apply keeping.unrefused number
    rw [notices, isNotice]
    exact List.mem_cons_self
  have awaiting : right.Awaiting source := by
    cases isApplied : link.right.applied label with
    | some applied =>
        rcases runs.phase with unaccepted | accepted
        · have isOffer :=
            runs.underway.applied isSource arrives admitted isApplied
          exact
            keeping.accepts_awaiting large accepts keeps same unaccepted
              flags measures isOffer isApplied taken
        · rw [accepted.noAccept notices] at isApplied
          cases isApplied
    | none =>
        exact
          keeping.continues_awaiting isLoop isApplied unrestarted taken
  constructor
  case flagged =>
    exact loopStep_held isLoop flags keeping.flagged effect taken
  case toAwaiting => exact awaiting
  case asked =>
    intro number offset hash member
    rcases answeringEffect_asked effect number offset hash member with
      earlier | ⟨job, waits, isHash⟩
    · exact keeping.asked number offset hash earlier
    · rw [isHash, Peer.fingerprint, hashes, if_neg Bool.false_ne_true]
      exact awaiting.present job waits
  case unrefused =>
    intro number member
    apply keeping.unrefused number
    rw [notices]
    exact List.mem_append_right _ member
  case unrestarted =>
    intro isRestart
    rw [handled] at isRestart
    rcases List.mem_append.mp isRestart with earlier | now
    · exact keeping.unrestarted earlier
    · exact unrestarted (Option.mem_toList.mp now)

theorem step
    {label : LinkLabel} (flagged : exchange.Flagged link)
    (admitted : exchange.Resumes link label)
    (stepped : linkStep link label = some next) : next.Keeping source := by
  have underway := runs.underway
  have isLoop {label : PeerLabel} {right : Peer} {outbox : List Letter} :=
    @loop exchange leftFiles rightFiles source link large offers accepts
      isSource keeps same runs keeping label right outbox
  obtain ⟨⟨admits, works⟩, reads⟩ := admitted
  cases linkStep_effect stepped with
  | leftCommand command faults left isSend taken =>
      have effect := commandStep_offering isSend taken
      exact
        @sending _ _ left link.right.outbox keeping (fun _ member => member)
          (keeping.unrefuses underway isSource
            (fun _ isTaken => by cases isTaken)
            (fun isTaken => absurd rfl isTaken) effect)
  | leftControl faults letter rest left arrived taken =>
      have effect := controlStep_offering underway.bound.roles.sends taken
      have answers := answers_of_outbox arrived
      have succeeds : faults.fingerprint = false := by
        simpa [LinkLabel.hashes] using works
      refine
        keeping.sending ?_
          (keeping.unrefuses underway isSource ?_ (fun _ => succeeds) effect)
      · intro answer member
        rw [answers]
        exact List.mem_append_right _ member
      · intro answer isTaken
        rw [answers, isTaken]
        exact List.mem_cons_self
  | leftEnds reason left taken =>
      have effect := endStep_offering .none taken
      exact
        @sending _ _ left link.right.outbox keeping (fun _ member => member)
          (keeping.unrefuses underway isSource
            (fun _ isTaken => by cases isTaken)
            (fun isTaken => absurd rfl isTaken) effect)
  | leftSend label left taken =>
      have notices : left.notices = link.left.notices :=
        congrArg Offering.notices (sendStep_offering taken)
      refine
        @sending _ _ left link.right.outbox keeping (fun _ member => member)
          ?_
      rw [notices]
      exact keeping.unrefused
  | rightCommand command faults right receives taken =>
      have effect := commandStep_answering receives taken
      have reads : faults.metadata = false ∧ faults.fingerprint = false := by
        simpa [LinkLabel.reads] using reads
      refine
        @isLoop (.command command faults) right link.left.outbox rfl
          (fun _ _ isControl => by cases isControl)
          (fun _ _ _ _ isMessage => by cases isMessage) ?_ reads.1 reads.2
          rfl taken effect
      intro accept others isCommand
      cases isCommand
      exact admits.1
  | rightControl faults letter rest right arrived taken =>
      have effect := controlStep_answering underway.bound.roles.receives taken
      have reads : faults.metadata = false ∧ faults.fingerprint = false := by
        simpa [LinkLabel.reads] using reads
      have isFirst : letter ∈ link.left.outbox := by
        rw [arrived]
        exact List.mem_cons_self
      refine
        @isLoop (.control letter faults) right rest rfl ?_ ?_
          (fun _ _ isCommand => by cases isCommand) reads.1 reads.2
          (notices_of_outbox arrived) taken effect
      · intro other others isControl
        cases isControl
        exact isFirst
      · intro name size resume checksum isMessage
        have isMessage :
            letter.message = .metadata name size resume checksum :=
          Option.some.inj isMessage
        refine
          flagged.announced letter ?_ name size resume checksum isMessage
        rw [Peer.offersOut, List.mem_filter, isMessage]
        exact ⟨isFirst, rfl⟩
  | rightEnds reason right taken =>
      have effect := endStep_answering .none taken
      exact
        @isLoop (.loopEnds reason) right link.left.outbox rfl
          (fun _ _ isControl => by cases isControl)
          (fun _ _ _ _ isMessage => by cases isMessage)
          (fun _ _ isCommand => by cases isCommand) rfl rfl rfl taken effect
  | received chunk rest right isFront taken =>
      exact keeping.task runs.sole rfl taken
  | rightRecv label right notReceive taken =>
      exact keeping.task runs.sole rfl taken

end Steps

end Link.Keeping

/-- What holds of an exchange that can only resume. -/
structure Exchange.Continues
    (exchange : Exchange) (leftFiles rightFiles : Files)
    (source : List UInt8) (link : Link) : Prop where
  runs : exchange.Runs leftFiles rightFiles source.length link
  flagged : exchange.Flagged link
  keeping : link.Keeping source

section Completed

variable {exchange : Exchange} {leftFiles rightFiles : Files}
  {source : List UInt8} {labels : List LinkLabel} {link next : Link}

theorem Exchange.Continues.initial
    (exchange : Exchange) (leftFiles rightFiles : Files)
    (source : List UInt8) :
    exchange.Continues leftFiles rightFiles source
      (.initial leftFiles rightFiles) where
  runs := Exchange.Runs.initial exchange leftFiles rightFiles source.length
  flagged := Exchange.Flagged.initial exchange leftFiles rightFiles
  keeping := Link.Keeping.initial source leftFiles rightFiles

theorem Exchange.Continues.step
    {label : LinkLabel}
    (continues : exchange.Continues leftFiles rightFiles source link)
    (large : resumeThresholdBytes ≤ source.length)
    (offers : exchange.offer.resume = true)
    (accepts : exchange.accept.resume = true)
    (isSource :
      leftFiles (components exchange.offer.path) = some (.file source))
    (keeps : (exchange.applied source.length).kept rightFiles ≠ [])
    (same :
      fingerprintOf ((exchange.applied source.length).kept rightFiles) =
        fingerprintOf source)
    (admitted : exchange.Resumes link label)
    (stepped : linkStep link label = some next) :
    exchange.Continues leftFiles rightFiles source next := by
  obtain ⟨runs, flagged, keeping⟩ := continues
  refine
    ⟨runs.step isSource admitted.1.1 stepped,
      flagged.step runs.underway.bound.roles.sends ?_ stepped,
      keeping.step large offers accepts isSource keeps same runs flagged
        admitted stepped⟩
  intro path checksum resume faults isCommand
  rw [isCommand] at admitted
  exact admitted.1.1.1

theorem keeping_of_run
    (large : resumeThresholdBytes ≤ source.length)
    (offers : exchange.offer.resume = true)
    (accepts : exchange.accept.resume = true)
    (isSource :
      leftFiles (components exchange.offer.path) = some (.file source))
    (keeps : (exchange.applied source.length).kept rightFiles ≠ [])
    (same :
      fingerprintOf ((exchange.applied source.length).kept rightFiles) =
        fingerprintOf source)
    (run :
      Run linkStep exchange.Resumes (.initial leftFiles rightFiles) labels
        link) :
    link.Keeping source := by
  have continues : exchange.Continues leftFiles rightFiles source link := by
    refine
      run.preserves (exchange.Continues leftFiles rightFiles source) ?_
        (Exchange.Continues.initial exchange leftFiles rightFiles source)
    intro link label next continues admitted stepped
    exact
      continues.step large offers accepts isSource keeps same admitted
        stepped
  exact continues.keeping

/-- What has been received is what was kept and has been confirmed. -/
theorem resumed_of_received
    (keeping : link.Keeping source)
    (runs : exchange.Runs leftFiles rightFiles source.length link)
    (received : link.right.receipts ≠ []) :
    .resumeOk ∈ link.right.handled := by
  rcases runs.phase with unaccepted | accepted
  · exact absurd unaccepted.receipts received
  · rcases accepted.sole.finished with none | ⟨ended, -⟩
    · exact absurd none received
    · rcases keeping.waits with settled | ⟨job, waits⟩ | confirmed
      · have noReceipts := (List.append_eq_nil_iff.mp settled).2
        exact absurd (List.map_eq_nil_iff.mp noReceipts) received
      · have noneWaits := (unfinished_eq_nil.mp ended).1
        have waits : link.right.recvSide.pendingResumeRecv = some job :=
          waits
        rw [noneWaits] at waits
        cases waits
      · exact confirmed

/-- What can be kept of a front has the fingerprint of the source. -/
theorem fingerprintOf_kept
    (large : resumeThresholdBytes ≤ source.length)
    (resumable :
      Resumable source (exchange.applied source.length).destPath rightFiles)
    (keeps : (exchange.applied source.length).kept rightFiles ≠ []) :
    fingerprintOf ((exchange.applied source.length).kept rightFiles) =
      fingerprintOf source := by
  refine fingerprintOf_front ?_ (fingerprintSize_le_kept large keeps)
  rcases kept_cases keeps with
    ⟨part, isPart, -⟩ | ⟨noPart, dest, isDest, sized⟩
  · have isFront : part <+: source := resumable.staged part isPart
    simp only [AppliedAccept.kept, isPart]
    exact (List.take_prefix _ _).trans isFront
  · rw [kept_dest noPart isDest sized, resumable.dest_eq isDest sized]

/-- What is kept of a front is as long as what is not sent. -/
theorem kept_length_of_resumed
    {offset : Nat} {content : List UInt8}
    (reconstructs :
      exchange.Reconstructs rightFiles source link offset content)
    (resumed : .resumeOk ∈ link.right.handled) :
    ((exchange.applied source.length).kept rightFiles).length = offset := by
  rcases reconstructs.resumed resumed with
    ⟨part, isPart, isOffset, positive, within, whole⟩ |
      ⟨dest, noPart, isDest, sized, isOffset, whole⟩
  · rw [kept_part isPart isOffset within]
    apply List.length_take_of_le
    rw [isOffset]
    exact Nat.div_mul_le_self part.length fileChunkSize
  · rw [kept_dest noPart isDest sized, isOffset]
    exact sized

/-- If both sides want to resume and can read what there is, a front of the
source is never refused, and the stream of the completed exchange carries
exactly what is missing behind it. -/
theorem kept_front_not_sent_again
    (large : resumeThresholdBytes ≤ source.length)
    (offers : exchange.offer.resume = true)
    (accepts : exchange.accept.resume = true)
    (isSource :
      leftFiles (components exchange.offer.path) = some (.file source))
    (resumable :
      Resumable source (exchange.applied source.length).destPath rightFiles)
    (run :
      Run linkStep exchange.Resumes (.initial leftFiles rightFiles) labels
        link) :
    ((exchange.applied source.length).kept rightFiles ≠ [] →
      .restartFromZero ∉ link.right.handled) ∧
      (.transferComplete .completed ∈ link.left.events →
        link.left.fileSent =
          source.drop
            ((exchange.applied source.length).kept rightFiles).length) := by
  have keeping (keeps : (exchange.applied source.length).kept rightFiles ≠ []) :
      link.Keeping source :=
    keeping_of_run large offers accepts isSource keeps
      (fingerprintOf_kept large resumable keeps) run
  refine ⟨fun keeps => (keeping keeps).unrestarted, fun completed => ?_⟩
  have admitted := run.weaken fun _ _ resumes => resumes.1.1
  have received := receipts_of_completed isSource admitted completed
  have runs := Exchange.Runs.run isSource admitted
  obtain ⟨offset, content, reconstructs⟩ :=
    runs.reconstructs isSource received
  rw [reconstructs.sent]
  by_cases resumed : .resumeOk ∈ link.right.handled
  · rw [kept_length_of_resumed reconstructs resumed]
  · -- Nothing has been confirmed, so that there was nothing to keep.
    have fromZero := (reconstructs.fromZero resumed).1
    have nothing : (exchange.applied source.length).kept rightFiles = [] := by
      by_contra keeps
      exact resumed (resumed_of_received (keeping keeps) runs received)
    rw [fromZero, nothing]
    rfl

end Completed

/-- The finished file is the source, and nothing of it is sent. -/
theorem kept_front_not_sent_again_zeros :
    ∃ link : Link,
      .transferComplete .completed ∈ link.left.events ∧
        ((resumingExchange.applied (zerosThen 0).length).kept
              (finishedFiles (zerosThen 0)) ≠ [] →
          .restartFromZero ∉ link.right.handled) ∧
          (.transferComplete .completed ∈ link.left.events →
            link.left.fileSent =
              (zerosThen 0).drop
                ((resumingExchange.applied (zerosThen 0).length).kept
                  (finishedFiles (zerosThen 0))).length) := by
  have keeps := zerosThen_canKeep 0
  obtain ⟨labels, link, run, completed, -⟩ :=
    kept_run keeps rfl (fun _ _ => rfl)
  refine
    ⟨link, completed,
      kept_front_not_sent_again keeps.large rfl rfl keeps.isSource ?_ run⟩
  constructor
  case staged =>
    intro content present
    have noPart := keeps.noPart
    rw [AppliedAccept.partPath, present] at noPart
    cases noPart
  case finished =>
    intro _ content present
    rw [keeps.isDest] at present
    cases present
    exact List.prefix_refl _

end Quiczilla
