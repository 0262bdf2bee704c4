import Quiczilla.ExchangeDigests

/-!
# Resuming what is there

The receiving side offers to keep a staging file or a finished file and gives
the digest of its first 64 KiB; the sending side compares it with its own.
What is behind these 64 KiB is compared by the checksum only, if both sides
want one.
-/

namespace Quiczilla

open Foundation

/-- The digest that `compute_prefix_hash` gives for this content. -/
def fingerprintOf (content : List UInt8) : String :=
  sha256Hex (content.take resumeFingerprintSize)

/-- What the accept can keep of the files before it. -/
def AppliedAccept.kept
    (applied : AppliedAccept) (before : Files) : List UInt8 :=
  match before applied.partPath with
  | some (.file part) => part.take (alignedOffset part.length applied.size)
  | some (.directory _) => []
  | none =>
      match before applied.destPath with
      | some (.file dest) => if dest.length = applied.size then dest else []
      | _ => []

/-! ## The offer to keep something -/

section Keeping

variable {applied : AppliedAccept} {before files : Files} {job : RecvJob}

theorem kept_part
    {part : List UInt8} {offset : Nat}
    (isPart : before applied.partPath = some (.file part))
    (isOffset : offset = part.length / fileChunkSize * fileChunkSize)
    (within : offset ≤ applied.size) :
    applied.kept before = part.take offset := by
  have aligned : alignedOffset part.length applied.size = offset := by
    rw [alignedOffset, ← isOffset, if_neg (Nat.not_lt.mpr within)]
  simp only [AppliedAccept.kept, isPart, aligned]

theorem kept_dest
    {dest : List UInt8} (noPart : before applied.partPath = none)
    (isDest : before applied.destPath = some (.file dest))
    (sized : dest.length = applied.size) :
    applied.kept before = dest := by
  simp only [AppliedAccept.kept, noPart, isDest, if_pos sized]

/-- What a job keeps of a file is what the accept can keep. -/
theorem kept_of_keeps
    {existing : List UInt8} (keeps : applied.Keeps before job)
    (isFile : before job.targetWritePath = some (.file existing)) :
    job.kept before = applied.kept before := by
  have isContent :
      before.content? job.targetWritePath = some existing :=
    FileStore.content?_eq_some.mpr isFile
  rw [RecvJob.kept, isContent, Option.getD_some]
  cases keeps with
  | part isTarget isOffset positive =>
      rw [isTarget] at isFile
      rw [length?_file isFile] at isOffset
      simp only [AppliedAccept.kept, isFile]
      rw [isOffset]
  | dest noPart measured isTarget isOffset positive =>
      rw [isTarget] at isFile
      rw [length?_file isFile] at measured
      simp only [AppliedAccept.kept, noPart, isFile, if_pos measured]
      rw [isOffset, ← measured, List.take_length]

/-- Whole chunks are longer than their fingerprint looks. -/
theorem fingerprintSize_le_chunks
    {length : Nat} (positive : 0 < length / fileChunkSize * fileChunkSize) :
    resumeFingerprintSize ≤ length / fileChunkSize * fileChunkSize := by
  have chunks : 0 < length / fileChunkSize :=
    Nat.pos_of_mul_pos_right positive
  calc
    resumeFingerprintSize ≤ 1 * fileChunkSize := by decide
    _ ≤ _ := Nat.mul_le_mul_right fileChunkSize chunks

/-- Whatever is kept is longer than its fingerprint looks. -/
theorem fingerprintSize_le
    (keeps : applied.Keeps before job)
    (large : resumeThresholdBytes ≤ applied.size) :
    resumeFingerprintSize ≤ job.resumeOffset := by
  cases keeps with
  | part isTarget isOffset positive =>
      rw [isOffset] at positive ⊢
      have aligned := alignedOffset_of_pos positive
      rw [aligned] at positive ⊢
      exact fingerprintSize_le_chunks positive
  | dest noPart measured isTarget isOffset positive =>
      rw [isOffset]
      exact Nat.le_trans (by decide) large

/-- The fingerprint is taken of what is kept, if it is taken at all. -/
theorem fingerprint_of_grounded
    (keeps : applied.Keeps before job)
    (large : resumeThresholdBytes ≤ applied.size)
    (grounded : job.Grounded before files) :
    computePrefixHash files job.targetWritePath resumeFingerprintSize =
        none ∨
      computePrefixHash files job.targetWritePath resumeFingerprintSize =
        some (fingerprintOf (applied.kept before)) := by
  obtain ⟨content, present, isKept, onDisk⟩ | ⟨length, isDirectory⟩ :=
    grounded keeps.positive
  · refine Or.inr ?_
    obtain ⟨existing, isFile, -⟩ := file_of_kept isKept keeps.positive
    have isPrefix := onDisk.written
    rw [List.append_nil, List.length_nil, Nat.add_zero, isKept] at isPrefix
    have isContent :
        files.content? job.targetWritePath = some content :=
      FileStore.content?_eq_some.mpr present
    have seen : min resumeFingerprintSize job.resumeOffset =
        resumeFingerprintSize :=
      Nat.min_eq_left (fingerprintSize_le keeps large)
    rw [computePrefixHash, isContent, Option.map_some, fingerprintOf,
      ← kept_of_keeps keeps isFile, ← isPrefix, List.take_take, seen]
  · refine Or.inl ?_
    rw [computePrefixHash, FileStore.content?, isDirectory]
    rfl

end Keeping

/-! ## Questions and confirmations -/

section Effects

variable {peer next : Peer} {faults : Faults}

/-- What is asked is asked for the receive that waits. -/
theorem answeringEffect_asked
    {notice : Option Notice}
    (effect : AnsweringEffect peer notice faults next) :
    ∀ number offset hash,
      .resumeReady number offset hash ∈ next.answers →
        .resumeReady number offset hash ∈ peer.answers ∨
          ∃ job, next.coordinator.pendingResumeRecv = some job ∧
            hash = next.fingerprint job.targetWritePath faults := by
  intro number offset hash member
  have same (isNext : next.answers = peer.answers) :
      .resumeReady number offset hash ∈ peer.answers := by
    rw [isNext] at member
    exact member
  have ready {told : Nat}
      (isNext : next.answers = peer.answers ++ [.ready told]) :
      .resumeReady number offset hash ∈ peer.answers := by
    rw [isNext] at member
    obtain earlier | last := List.mem_append.mp member
    · exact earlier
    · cases List.mem_singleton.mp last
  cases effect with
  | quiet noOffer isNext =>
      exact Or.inl (same (congrArg Answering.answers isNext))
  | held offer isOffer isNext =>
      exact Or.inl (same (congrArg Answering.answers isNext))
  | accepted offer job grants isFor fromZero isNext =>
      exact Or.inl (ready (congrArg Answering.answers isNext))
  | resumed offer job grants isFor positive fits isNext =>
      have isAnswers :
          next.answers =
            peer.answers ++
              [.resumeReady offer.number job.resumeOffset
                (next.fingerprint job.targetWritePath faults)] :=
        congrArg Answering.answers isNext
      rw [isAnswers] at member
      obtain earlier | last := List.mem_append.mp member
      · exact Or.inl earlier
      · obtain ⟨-, -, isHash⟩ :=
          Answer.resumeReady.inj (List.mem_singleton.mp last)
        exact Or.inr ⟨job, congrArg Answering.waiting isNext, isHash⟩
  | withdrawn noNotice isNext =>
      exact Or.inl (same (congrArg Answering.answers isNext))
  | confirmed job isConfirmation waits isNext =>
      exact Or.inl (same (congrArg Answering.answers isNext))
  | restarted told job isRestart waits isNext =>
      exact Or.inl (ready (congrArg Answering.answers isNext))

/-- What is confirmed has been asked for, with the fingerprint of the
source. -/
theorem offeringEffect_confirms
    {answer : Option Answer}
    (effect : OfferingEffect peer answer faults next.offering)
    (isConfirmed : .resumeOk ∈ next.notices) :
    .resumeOk ∈ peer.notices ∨
      ∃ number offset prefixHash pending,
        answer = some (.resumeReady number offset prefixHash) ∧
          peer.coordinator.pendingSendPath = some pending ∧
            peer.fingerprint (components pending.path) faults =
              prefixHash := by
  change .resumeOk ∈ next.offering.notices at isConfirmed
  cases effect with
  | quiet noAnswer isNext =>
      rw [isNext] at isConfirmed
      exact Or.inl isConfirmed
  | announced pending size noAnswer measured isNext =>
      rw [isNext] at isConfirmed
      obtain earlier | last := List.mem_append.mp isConfirmed
      · exact Or.inl earlier
      · cases List.mem_singleton.mp last
  | started taken pending isTaken waits fromZero isNext =>
      rw [isNext] at isConfirmed
      exact Or.inl isConfirmed
  | confirmed number offset prefixHash pending isTaken waits positive agree
      isNext =>
      exact
        Or.inr ⟨number, offset, prefixHash, pending, isTaken, waits, agree⟩
  | refuted number offset prefixHash pending isTaken waits positive other
      isNext =>
      rw [isNext] at isConfirmed
      obtain earlier | last := List.mem_append.mp isConfirmed
      · exact Or.inl earlier
      · cases List.mem_singleton.mp last

end Effects

/-- While a receive waits, its fingerprint is that of what is kept. -/
theorem Exchange.Accepted.fingerprint
    {exchange : Exchange} {rightFiles : Files} {size : Nat} {link : Link}
    {job : RecvJob} (accepted : exchange.Accepted rightFiles size link)
    (large : resumeThresholdBytes ≤ size)
    (waits : link.right.coordinator.pendingResumeRecv = some job)
    (faults : Faults) :
    link.right.fingerprint job.targetWritePath faults = none ∨
      link.right.fingerprint job.targetWritePath faults =
        some (fingerprintOf ((exchange.applied size).kept rightFiles)) := by
  by_cases fails : faults.fingerprint = true
  · refine Or.inl ?_
    rw [Peer.fingerprint, if_pos fails]
  · rw [Peer.fingerprint, if_neg fails]
    have grounded := accepted.sole.resuming job waits
    cases accepted.course with
    | fromZero noneWaits _ _ =>
        rw [noneWaits] at waits
        cases waits
    | waiting other isWaiting isKept _ _ _ =>
        rw [waits] at isWaiting
        rw [← Option.some.inj isWaiting] at isKept
        exact fingerprint_of_grounded isKept large grounded
    | resumed noneWaits _ _ _ _ =>
        rw [noneWaits] at waits
        cases waits

/-! ## Runs -/

/-- The step does not compare two prefix hashes that could both not be
computed. -/
def Link.Compares (link : Link) : LinkLabel → Prop
  | .leftControl faults =>
      faults.fingerprint = true →
        ∀ letter ∈ link.right.outbox.head?, ∀ offset,
          letter.message ≠ .resumeReady offset none
  | _ => True

theorem Link.compares_of_hashes
    (link : Link) {label : LinkLabel} (works : label.hashes = true) :
    link.Compares label := by
  cases label with
  | leftControl faults =>
      intro fails
      rw [LinkLabel.hashes, fails] at works
      cases works
  | _ => trivial

/-- What is asked carries the fingerprint of what is kept, and what is confirmed
has that of the source. -/
structure Link.Vouched (kept source : List UInt8) (link : Link) : Prop where
  asked :
    ∀ number offset hash,
      .resumeReady number offset hash ∈ link.right.answers →
        hash = none ∨ hash = some (fingerprintOf kept)
  confirmed :
    .resumeOk ∈ link.left.notices ∨ .resumeOk ∈ link.right.handled →
      fingerprintOf kept = fingerprintOf source

namespace Link.Vouched

variable {exchange : Exchange} {leftFiles rightFiles : Files}
  {source kept : List UInt8} {link next : Link}

theorem initial (kept source : List UInt8) (leftFiles rightFiles : Files) :
    (Link.initial leftFiles rightFiles).Vouched kept source where
  asked _ _ _ member := by cases member
  confirmed isConfirmed := by
    obtain isNotice | isHandled := isConfirmed
    · cases isNotice
    · cases isHandled

/-- The sending side confirms what has its own fingerprint only. -/
theorem confirms
    {left : Peer} {answer : Option Answer} {faults : Faults}
    (vouched : link.Vouched kept source)
    (underway : exchange.Underway leftFiles link)
    (isSource :
      leftFiles (components exchange.offer.path) = some (.file source))
    (asked : ∀ taken, answer = some taken → taken ∈ link.right.answers)
    (compares :
      faults.fingerprint = true →
        ∀ number offset, answer ≠ some (.resumeReady number offset none))
    (effect : OfferingEffect link.left answer faults left.offering)
    (isConfirmed : .resumeOk ∈ left.notices) :
    fingerprintOf kept = fingerprintOf source := by
  obtain earlier | ⟨number, offset, prefixHash, pending, isTaken, waits,
      agree⟩ := offeringEffect_confirms effect isConfirmed
  · exact vouched.confirmed (Or.inl earlier)
  · have isContent :
        link.left.files.content? (components pending.path) =
          some source := by
      rw [(underway.once.asked pending waits).2.1, underway.sources]
      exact FileStore.content?_eq_some.mpr isSource
    have isOwn (succeeds : ¬faults.fingerprint = true) :
        link.left.fingerprint (components pending.path) faults =
          some (fingerprintOf source) := by
      simp [Peer.fingerprint, succeeds, computePrefixHash, isContent,
        fingerprintOf]
    obtain isNone | isKept :=
      vouched.asked number offset prefixHash (asked _ isTaken)
    · rw [isNone] at isTaken agree
      have succeeds : ¬faults.fingerprint = true :=
        fun fails => compares fails _ _ isTaken
      rw [isOwn succeeds] at agree
      cases agree
    · rw [isKept] at agree
      by_cases fails : faults.fingerprint = true
      · rw [Peer.fingerprint, if_pos fails] at agree
        cases agree
      · rw [isOwn fails] at agree
        exact (Option.some.inj agree).symm

/-- What the receiving loop asks carries the fingerprint of what is kept, and
what it is told was confirmed before. -/
theorem rightLoop
    {peerLabel : PeerLabel} {faults : Faults} {outbox : List Letter}
    (vouched :
      link.Vouched ((exchange.applied source.length).kept rightFiles)
        source)
    (large : resumeThresholdBytes ≤ source.length)
    (after : exchange.Runs leftFiles rightFiles source.length next)
    (isLoop : peerLabel.isLoop = true)
    (isLeft : next.left = link.left.withOutbox outbox)
    (notices :
      link.left.notices =
        peerLabel.notice?.toList ++ (link.left.withOutbox outbox).notices)
    (taken : peerStep link.right peerLabel = some next.right)
    (effect :
      AnsweringEffect link.right peerLabel.notice? faults next.right) :
    next.Vouched ((exchange.applied source.length).kept rightFiles)
      source := by
  have handled := loopStep_handled isLoop taken
  refine ⟨?_, ?_⟩
  · intro number offset hash member
    obtain earlier | ⟨job, waits, isHash⟩ :=
      answeringEffect_asked effect number offset hash member
    · exact vouched.asked number offset hash earlier
    · rw [isHash]
      -- A receive waits behind the accept only.
      obtain unaccepted | accepted := after.phase
      · rw [unaccepted.noneWaits.1] at waits
        cases waits
      · exact accepted.fingerprint large waits faults
  · intro isConfirmed
    apply vouched.confirmed
    rw [isLeft, handled] at isConfirmed
    rw [notices]
    obtain isNotice | isHandled := isConfirmed
    · exact Or.inl (List.mem_append_right _ isNotice)
    · obtain earlier | now := List.mem_append.mp isHandled
      · exact Or.inr earlier
      · have isMessage : peerLabel.message = some .resumeOk :=
          Option.mem_toList.mp now
        refine Or.inl (List.mem_append_left _ ?_)
        rw [notice?_resumeOk.mpr isMessage]
        exact List.mem_cons_self

/-- The receive task neither asks nor is told. -/
theorem rightTask
    {right : Peer} {label : RecvLabel} {rest : List UInt8}
    (vouched : link.Vouched kept source)
    (taken : link.right.recvStep label = some right) :
    (Link.mk (link.left.withFileOut rest) right).Vouched kept source where
  asked := by
    have answers : right.answers = link.right.answers :=
      congrArg Answering.answers (recvStep_answering taken)
    change
      ∀ number offset hash,
        .resumeReady number offset hash ∈ right.answers → _
    rw [answers]
    exact vouched.asked
  confirmed := by
    change .resumeOk ∈ link.left.notices ∨ .resumeOk ∈ right.handled → _
    rw [recvStep_handled taken]
    exact vouched.confirmed

/-- A step of the sending loop confirms what it has been asked for. -/
theorem leftLoop
    {answer : Option Answer} {faults : Faults}
    (vouched : link.Vouched kept source)
    (underway : exchange.Underway leftFiles link)
    (isSource :
      leftFiles (components exchange.offer.path) = some (.file source))
    (asked : link.right.answers = answer.toList ++ next.right.answers)
    (handled : next.right.handled = link.right.handled)
    (compares :
      faults.fingerprint = true →
        ∀ number offset, answer ≠ some (.resumeReady number offset none))
    (effect : OfferingEffect link.left answer faults next.left.offering) :
    next.Vouched kept source where
  asked number offset hash member := by
    apply vouched.asked number offset hash
    rw [asked]
    exact List.mem_append_right _ member
  confirmed := by
    rw [handled]
    rintro (isNotice | isHandled)
    · refine
        vouched.confirms underway isSource ?_ compares effect isNotice
      intro taken isTaken
      rw [asked, isTaken]
      exact List.mem_cons_self
    · exact vouched.confirmed (Or.inr isHandled)

/-- The answer at the front is not one without a hash, if the step compares. -/
theorem answer_ne_of_compares
    {letter : Letter} {rest : List Letter} {faults : Faults}
    (compares : link.Compares (.leftControl faults))
    (arrived : link.right.outbox = letter :: rest)
    (fails : faults.fingerprint = true) (number offset : Nat) :
    letter.answer? ≠ some (.resumeReady number offset none) := by
  intro isAnswer
  have isFront : letter ∈ link.right.outbox.head? := by
    rw [arrived]
    rfl
  apply compares fails letter isFront offset
  rw [Letter.answer?] at isAnswer
  split at isAnswer
  · cases isAnswer
  · rename_i isMessage
    cases isAnswer
    exact isMessage
  · cases isAnswer

theorem step
    {label : LinkLabel}
    (vouched :
      link.Vouched ((exchange.applied source.length).kept rightFiles)
        source)
    (large : resumeThresholdBytes ≤ source.length)
    (runs : exchange.Runs leftFiles rightFiles source.length link)
    (after : exchange.Runs leftFiles rightFiles source.length next)
    (isSource :
      leftFiles (components exchange.offer.path) = some (.file source))
    (compares : link.Compares label)
    (stepped : linkStep link label = some next) :
    next.Vouched ((exchange.applied source.length).kept rightFiles)
      source := by
  have underway := runs.underway
  have sends := underway.bound.roles.sends
  cases linkStep_effect stepped with
  | leftCommand command faults left isSend taken =>
      have effect := commandStep_offering isSend taken
      exact
        vouched.leftLoop underway isSource rfl rfl
          (fun _ _ _ isTaken => by cases isTaken) effect
  | leftControl faults letter rest left arrived taken =>
      have effect := controlStep_offering sends taken
      exact
        vouched.leftLoop underway isSource (answers_of_outbox arrived) rfl
          (answer_ne_of_compares compares arrived) effect
  | leftEnds reason left taken =>
      have effect := endStep_offering .none taken
      exact
        vouched.leftLoop underway isSource rfl rfl
          (fun _ _ _ isTaken => by cases isTaken) effect
  | leftSend label left taken =>
      have notices : left.notices = link.left.notices :=
        congrArg Offering.notices (sendStep_offering taken)
      refine ⟨vouched.asked, ?_⟩
      rw [notices]
      exact vouched.confirmed
  | rightCommand command faults right receives taken =>
      have effect := commandStep_answering receives taken
      exact
        @rightLoop _ _ _ _ link _ (.command command faults) faults
          link.left.outbox vouched large after rfl rfl rfl taken effect
  | rightControl faults letter rest right arrived taken =>
      have effect := controlStep_answering underway.bound.roles.receives taken
      exact
        @rightLoop _ _ _ _ link _ (.control letter faults) faults rest
          vouched large after rfl rfl (notices_of_outbox arrived) taken
          effect
  | rightEnds reason right taken =>
      have effect := endStep_answering .none taken
      exact
        @rightLoop _ _ _ _ link _ (.loopEnds reason) .none
          link.left.outbox vouched large after rfl rfl rfl taken effect
  | received chunk rest right isFront taken =>
      exact vouched.rightTask taken
  | rightRecv label right notReceive taken =>
      exact
        @rightTask source _ link right label link.left.fileOut vouched taken

end Link.Vouched

/-- What is left behind if something else than a prefix of the source may have
been kept. -/
structure Exchange.Splices
    (exchange : Exchange) (rightFiles : Files) (source : List UInt8)
    (link : Link) (content : List UInt8) : Prop where
  resumed : .resumeOk ∈ link.right.handled
  seen :
    resumeFingerprintSize ≤
      ((exchange.applied source.length).kept rightFiles).length
  fits :
    ((exchange.applied source.length).kept rightFiles).length ≤
      source.length
  whole :
    content =
      (exchange.applied source.length).kept rightFiles ++
        source.drop
          ((exchange.applied source.length).kept rightFiles).length
  fingerprint :
    fingerprintOf ((exchange.applied source.length).kept rightFiles) =
      fingerprintOf source

/-- The same, after both sides have verified if they want to. -/
structure Exchange.Mixes
    (exchange : Exchange) (rightFiles : Files) (source : List UInt8)
    (link : Link) (content : List UInt8) : Prop
    extends exchange.Splices rightFiles source link content where
  digest :
    exchange.offer.checksum = true → exchange.accept.checksum = true →
      sha256Hex content = sha256Hex source

/-- A step of the exchange that does not compare two missing hashes. -/
def Exchange.Compares
    (exchange : Exchange) (link : Link) (label : LinkLabel) : Prop :=
  exchange.Admits link label ∧ link.Compares label

/-- A step of the exchange in which every hash can be computed. -/
def Exchange.Verifies
    (exchange : Exchange) (link : Link) (label : LinkLabel) : Prop :=
  exchange.Admits link label ∧ label.hashes = true

theorem Exchange.compares_of_verifies
    {exchange : Exchange} {link : Link} {label : LinkLabel}
    (verifies : exchange.Verifies link label) :
    exchange.Compares link label :=
  ⟨verifies.1, link.compares_of_hashes verifies.2⟩

/-- Whether the receiving side can measure and hash what it would keep. -/
def LinkLabel.reads : LinkLabel → Bool
  | .rightCommand _ faults => !faults.metadata && !faults.fingerprint
  | .rightControl faults => !faults.metadata && !faults.fingerprint
  | _ => true

/-- A step of the exchange in which nothing that decides on a resume fails. -/
def Exchange.Resumes
    (exchange : Exchange) (link : Link) (label : LinkLabel) : Prop :=
  exchange.Verifies link label ∧ label.reads = true

section Completed

variable {exchange : Exchange} {leftFiles rightFiles : Files}
  {source : List UInt8} {labels : List LinkLabel} {link : Link}

theorem vouched_of_run
    (large : resumeThresholdBytes ≤ source.length)
    (isSource :
      leftFiles (components exchange.offer.path) = some (.file source))
    (run :
      Run linkStep exchange.Compares (.initial leftFiles rightFiles) labels
        link) :
    exchange.Runs leftFiles rightFiles source.length link ∧
      link.Vouched ((exchange.applied source.length).kept rightFiles)
        source := by
  refine
    run.preserves
      (fun link =>
        exchange.Runs leftFiles rightFiles source.length link ∧
          link.Vouched ((exchange.applied source.length).kept rightFiles)
            source)
      ?_
      ⟨Exchange.Runs.initial exchange leftFiles rightFiles source.length,
        Link.Vouched.initial _ source leftFiles rightFiles⟩
  intro link next label holds admitted stepped
  have after := holds.1.step isSource admitted.1 stepped
  exact
    ⟨after,
      holds.2.step large holds.1 after isSource admitted.2 stepped⟩

theorem digested_of_run
    (checksum : exchange.offer.checksum = true)
    (isSource :
      leftFiles (components exchange.offer.path) = some (.file source))
    (run :
      Run linkStep exchange.Verifies (.initial leftFiles rightFiles) labels
        link) :
    exchange.Digested source link := by
  have holds :
      exchange.Runs leftFiles rightFiles source.length link ∧
        exchange.Digested source link := by
    refine
      run.preserves
        (fun link =>
          exchange.Runs leftFiles rightFiles source.length link ∧
            exchange.Digested source link)
        ?_
        ⟨Exchange.Runs.initial exchange leftFiles rightFiles source.length,
          Exchange.Digested.initial exchange source leftFiles rightFiles⟩
    intro link next label holds admitted stepped
    exact
      ⟨holds.1.step isSource admitted.1 stepped,
        holds.2.step holds.1 isSource checksum admitted.2 stepped⟩
  exact holds.2

/-- The receive that was completed has been compared with the digest of the
source. -/
theorem digest_of_completed
    {content : List UInt8}
    (accepted : exchange.Accepted rightFiles source.length link)
    (digested : exchange.Digested source link)
    (received : link.right.receipts ≠ [])
    (present :
      link.right.files (exchange.applied source.length).destPath =
        some (.file content))
    (checksum : exchange.accept.checksum = true) :
    sha256Hex content = sha256Hex source := by
  obtain noReceipts | ⟨-, receipt, other, receipts, accepts, isFile, holds,
      passed⟩ := accepted.sole.finished
  · exact absurd noReceipts received
  have isFile :
      link.right.files (exchange.applied source.length).destPath =
        some (.file other) := isFile
  rw [present] at isFile
  cases isFile
  have isReceipt : receipt ∈ link.right.receipts := by
    have receipts : link.right.receipts = [receipt] := receipts
    rw [receipts]
    exact List.mem_cons_self
  have isChecksum : receipt.verified.job.checksum = true :=
    accepts.checksum.trans checksum
  have isHash :
      receipt.verified.actualHash = sha256Hex content := by
    rw [← holds.hashed isChecksum]
    exact (digested.checked.receipts receipt isReceipt).1.hashed isChecksum
  rw [digested.compared receipt isReceipt, isHash] at passed
  exact (hashOk_sha256Hex source content).mp passed

/-- What has been received of a large file is the source, or what was kept has
the fingerprint of the source. -/
theorem spliced_of_received
    (large : resumeThresholdBytes ≤ source.length)
    (isSource :
      leftFiles (components exchange.offer.path) = some (.file source))
    (runs : exchange.Runs leftFiles rightFiles source.length link)
    (vouched :
      link.Vouched ((exchange.applied source.length).kept rightFiles)
        source)
    (received : link.right.receipts ≠ []) :
    ∃ content,
      link.right.files (exchange.applied source.length).destPath =
          some (.file content) ∧
        (.resumeOk ∉ link.right.handled ∧ content = source ∨
          exchange.Splices rightFiles source link content) := by
  obtain unaccepted | accepted := runs.phase
  · exact absurd unaccepted.receipts received
  obtain ⟨offset, content, reconstructs⟩ :=
    accepted.reconstructs runs.underway isSource received
  refine ⟨content, reconstructs.present, ?_⟩
  by_cases resumed : .resumeOk ∈ link.right.handled
  · have fingerprint := vouched.confirmed (Or.inr resumed)
    obtain ⟨part, isPart, isOffset, positive, within, whole⟩ |
        ⟨dest, noPart, isDest, isLength, isOffset, whole⟩ :=
      reconstructs.resumed resumed
    · have isKept := kept_part isPart isOffset within
      have isLength :
          ((exchange.applied source.length).kept rightFiles).length =
            offset := by
        rw [isKept]
        apply List.length_take_of_le
        rw [isOffset]
        exact Nat.div_mul_le_self part.length fileChunkSize
      refine Or.inr ⟨resumed, ?_, ?_, ?_, fingerprint⟩
      · rw [isLength, isOffset]
        rw [isOffset] at positive
        exact fingerprintSize_le_chunks positive
      · rw [isLength]
        exact within
      · rw [isLength, isKept]
        exact whole
    · have isKept := kept_dest noPart isDest isLength
      refine Or.inr ⟨resumed, ?_, ?_, ?_, fingerprint⟩
      · rw [isKept, isLength]
        exact Nat.le_trans (by decide) large
      · rw [isKept, isLength]
      · rw [isKept, isLength, List.drop_length, List.append_nil]
        exact whole
  · exact Or.inl ⟨resumed, (reconstructs.fromZero resumed).2⟩

/-- If both sides verify, the content as a whole has the digest of the source,
too. -/
theorem content_of_received
    (large : resumeThresholdBytes ≤ source.length)
    (isSource :
      leftFiles (components exchange.offer.path) = some (.file source))
    (runs : exchange.Runs leftFiles rightFiles source.length link)
    (vouched :
      link.Vouched ((exchange.applied source.length).kept rightFiles)
        source)
    (digested :
      exchange.offer.checksum = true → exchange.Digested source link)
    (received : link.right.receipts ≠ []) :
    ∃ content,
      link.right.files (exchange.applied source.length).destPath =
          some (.file content) ∧
        (content = source ∨
          exchange.Mixes rightFiles source link content) := by
  obtain ⟨content, present, ⟨-, isSource⟩ | splices⟩ :=
    spliced_of_received large isSource runs vouched received
  · exact ⟨content, present, Or.inl isSource⟩
  · obtain unaccepted | accepted := runs.phase
    · exact absurd unaccepted.receipts received
    · refine
        ⟨content, present, Or.inr { toSplices := splices, digest := ?_ }⟩
      intro checksum accepts
      exact
        digest_of_completed accepted (digested checksum) received present
          accepts

/-- A completed exchange of a large file leaves behind what has been
received. -/
theorem content_of_completed
    (large : resumeThresholdBytes ≤ source.length)
    (isSource :
      leftFiles (components exchange.offer.path) = some (.file source))
    (run :
      Run linkStep exchange.Verifies (.initial leftFiles rightFiles) labels
        link)
    (completed : .transferComplete .completed ∈ link.left.events) :
    ∃ content,
      link.right.files (exchange.applied source.length).destPath =
          some (.file content) ∧
        (content = source ∨
          exchange.Mixes rightFiles source link content) := by
  have admitted := run.weaken fun _ _ verifies => verifies.1
  obtain ⟨runs, vouched⟩ :=
    vouched_of_run large isSource
      (run.weaken fun _ _ => Exchange.compares_of_verifies)
  exact
    content_of_received large isSource runs vouched
      (fun checksum => digested_of_run checksum isSource run)
      (receipts_of_completed isSource admitted completed)

end Completed

end Quiczilla
