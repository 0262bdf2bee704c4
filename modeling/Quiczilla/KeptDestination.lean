import Quiczilla.ColdResume
import Quiczilla.StagedCommit

/-!
# Keeping a finished file

A finished file of the offered size is kept as a whole if its first 64 KiB are
those of the source.  With a checksum on both sides the whole file has to have
the digest of the source, too; nothing else is looked at.
-/

namespace Quiczilla

open Foundation

/-- A source and a finished file of its size that may be resumed, with no
staging file in the way. -/
structure Exchange.CanKeep
    (exchange : Exchange) (leftFiles rightFiles : Files)
    (source dest : List UInt8) : Prop where
  offers : exchange.offer.resume = true
  accepts : exchange.accept.resume = true
  large : resumeThresholdBytes ≤ source.length
  sized : dest.length = source.length
  isSource :
    leftFiles (components exchange.offer.path) = some (.file source)
  isDest :
    rightFiles (exchange.applied source.length).destPath =
      some (.file dest)
  noPart : rightFiles (exchange.applied source.length).partPath = none
  parents :
    ∀ path ∈
        ((exchange.applied source.length).job source.length false
          0).ancestors,
      ∃ length, rightFiles path = some (.directory length)

/-- The two commands of an exchange and the letters about what is kept. -/
def Exchange.agreeing (exchange : Exchange) : List LinkLabel :=
  [.rightCommand
      (.acceptFile exchange.accept.saveDir exchange.accept.checksum
        exchange.accept.resume) .none,
    .leftCommand
      (.sendFile exchange.offer.path exchange.offer.checksum
        exchange.offer.resume) .none,
    .rightControl .none, .leftControl .none, .rightControl .none]

section Offering

variable (exchange : Exchange) (leftFiles : Files) (source : List UInt8)

/-- The job that sends what is not kept of the source. -/
def Exchange.keptSend : SendJob :=
  .of exchange.offer source.length 0

/-- The peer that has offered the source. -/
def Exchange.offering : Peer :=
  (Peer.initial leftFiles).announce exchange.offer source.length

/-- The peer that has confirmed what is kept. -/
def Exchange.confirming : Peer :=
  (((exchange.offering leftFiles source).withOutbox []).send .resumeOk
    0).startPending exchange.offer source.length

/-- The peer that has nothing left to send. -/
def Exchange.sending : Peer :=
  { exchange.confirming leftFiles source with
    outbox := []
    sendQueue := []
    sender := .opening (exchange.keptSend source)
    handled :=
      [.resumeReady source.length (some (fingerprintOf source))] }

/-- The hash that goes with the source. -/
def Exchange.sentHash : String :=
  if exchange.offer.checksum then sha256Hex source else "NONE"

/-- The peer that has sent nothing and says that all is sent. -/
def Exchange.sent : Peer :=
  Peer.send
    (Peer.emit
      { exchange.sending leftFiles source with sender := .idle }
      (.transferProgress source.length source.length true))
    (.fileSent (exchange.sentHash source)) 0

variable {exchange leftFiles source}

theorem handleSendFile_offering
    (isSource :
      leftFiles (components exchange.offer.path) = some (.file source)) :
    (Peer.initial leftFiles).handleSendFile exchange.offer .none =
      exchange.offering leftFiles source := by
  have measured :
      (Peer.initial leftFiles).files.length?
          (components exchange.offer.path) =
        some source.length :=
    FileStore.length?_of_file isSource
  have works : Faults.none.metadata = false := rfl
  simp only [Peer.handleSendFile, works, Bool.false_eq_true, if_false,
    measured]
  rfl

theorem handleResumeReady_confirming
    (isSource :
      leftFiles (components exchange.offer.path) = some (.file source))
    (positive : 0 < source.length) :
    ((exchange.offering leftFiles source).withOutbox []).handleResumeReady
        source.length (some (fingerprintOf source)) .none =
      exchange.confirming leftFiles source := by
  have isContent :
      leftFiles.content? (components exchange.offer.path) = some source :=
    FileStore.content?_eq_some.mpr isSource
  have isOwn :
      ((exchange.offering leftFiles source).withOutbox []).fingerprint
          (components exchange.offer.path) .none =
        some (fingerprintOf source) := by
    change computePrefixHash leftFiles _ _ = _
    rw [computePrefixHash, isContent]
    rfl
  have waits :
      ((exchange.offering leftFiles source).withOutbox
          []).coordinator.pendingSendPath =
        some exchange.offer :=
    rfl
  simp only [Peer.handleResumeReady, waits, if_pos positive, if_pos isOwn]
  rfl

theorem openSource_kept
    (isSource :
      leftFiles (components exchange.offer.path) = some (.file source)) :
    (exchange.sending leftFiles source).openSource
        (exchange.keptSend source) (.opened false) =
      some
        ((exchange.sending leftFiles source).withStream
          ((exchange.keptSend source).begin source.length)) := by
  have measured :
      (exchange.sending leftFiles source).files.length?
          (components (exchange.keptSend source).path) =
        some source.length :=
    FileStore.length?_of_file isSource
  simp only [Peer.openSource, measured]
  rfl

/-- The disk reader is at the end of the file. -/
def Exchange.keptStream (exchange : Exchange) (source : List UInt8) :
    SendStream :=
  { (exchange.keptSend source).begin source.length with
    reader := .finished "NONE" }

theorem readEnd_kept
    (isSource :
      leftFiles (components exchange.offer.path) = some (.file source))
    (positive : 0 < source.length) :
    ((exchange.sending leftFiles source).withStream
          ((exchange.keptSend source).begin source.length)).readEnd
        ((exchange.keptSend source).begin source.length) =
      some
        ((exchange.sending leftFiles source).withStream
          (exchange.keptStream source)) := by
  have isContent :
      ((exchange.sending leftFiles source).withStream
            ((exchange.keptSend source).begin source.length)).source
          ((exchange.keptSend source).begin source.length).job.path =
        some source :=
    FileStore.content?_eq_some.mpr isSource
  have atEnd :
      ((exchange.keptSend source).begin source.length).reader = .reading ∧
        source.length ≤
          ((exchange.keptSend source).begin source.length).position :=
    ⟨rfl, Nat.le_refl _⟩
  have notInline :
      ((exchange.keptSend source).begin
          source.length).inlineHash = "NONE" := by
    have isFalse :
        ((exchange.keptSend source).begin
            source.length).job.hashesInline = false := by
      have isOffset :
          ((exchange.keptSend source).begin
              source.length).job.resumeOffset =
            source.length :=
        rfl
      simp only [SendJob.hashesInline, isOffset, Bool.and_eq_false_imp]
      intro _
      exact beq_false_of_ne (Nat.ne_of_gt positive)
    rw [SendStream.inlineHash, isFalse]
    rfl
  simp only [Peer.readEnd, isContent, if_pos atEnd, notInline]
  rfl

theorem finishSending_kept
    (isSource :
      leftFiles (components exchange.offer.path) = some (.file source))
    (positive : 0 < source.length) :
    ((exchange.sending leftFiles source).withStream
          (exchange.keptStream source)).finishSending
        (exchange.keptStream source) false =
      some (exchange.sent leftFiles source) := by
  have isContent :
      leftFiles.content? (components exchange.offer.path) = some source :=
    FileStore.content?_eq_some.mpr isSource
  have isHash :
      ((exchange.sending leftFiles source).withStream
            (exchange.keptStream source)).finalHash
          (exchange.keptStream source) "NONE" false =
        exchange.sentHash source := by
    change
      (if exchange.offer.checksum && decide (0 < source.length) then
        if false then "NONE"
        else
          (computeFileSha256 leftFiles
            (components exchange.offer.path)).getD "NONE"
      else "NONE") = _
    rw [decide_eq_true positive, Bool.and_true, computeFileSha256,
      isContent]
    rfl
  have drained :
      (exchange.keptStream source).taken = none ∧
        (exchange.keptStream source).chunks = [] :=
    ⟨rfl, rfl⟩
  have isReader :
      (exchange.keptStream source).reader = .finished "NONE" :=
    rfl
  simp only [Peer.finishSending, if_pos drained, isReader, isHash]
  rfl

end Offering

section Accepting

/-- A target that is kept: whether it is the staging file, and what was touched
on the way, with the files then. -/
structure KeptTarget where
  usePart : Bool
  touched : List UnixPath
  files : Files

variable (exchange : Exchange) (leftFiles rightFiles : Files)
  (source whole : List UInt8) (target : KeptTarget)

/-- The job that keeps the whole target. -/
def Exchange.keptJob : RecvJob :=
  (exchange.applied source.length).job source.length target.usePart 0

/-- The peer whose accept waits for the offer. -/
def Exchange.accepting : Peer :=
  (Peer.initial rightFiles).setPendingAccept (some exchange.accept)

/-- The peer that takes the offer. -/
def Exchange.taking : Peer :=
  (((exchange.accepting rightFiles).recordOffer
      (offeredName exchange.offer.path) source.length exchange.offer.resume
      exchange.offer.checksum 0).setPendingAccept none).clearOffer

/-- The peer that has found something to keep. -/
def Exchange.prepared : Peer :=
  ((exchange.taking rightFiles source).withPartPath
    (some (exchange.applied source.length).partPath)).touch target.touched
      target.files

/-- The peer that has offered to keep the target. -/
def Exchange.keeping : Peer :=
  ((exchange.prepared rightFiles source target).offerResume
      (exchange.keptJob source target)
      (exchange.keptJob source target).targetWritePath .none).noteHandled
    (.metadata (offeredName exchange.offer.path) source.length
      exchange.offer.resume exchange.offer.checksum)

/-- The peer whose receive has started. -/
def Exchange.resuming : Peer :=
  { exchange.keeping rightFiles source target with
    coordinator :=
      (exchange.keeping rightFiles source target).clearResume.coordinator
    outbox := []
    handled :=
      (exchange.keeping rightFiles source target).handled ++ [.resumeOk]
    receiver := .opening (exchange.keptJob source target) }

/-- The peer that has opened the target. -/
def Exchange.reopened : Peer :=
  ((exchange.resuming rightFiles source target).touch
    [(exchange.keptJob source target).targetWritePath]
      target.files).withReceiving (exchange.keptJob source target).begin

/-- The receive that misses nothing. -/
def Exchange.keptWhole : Receiving :=
  { (exchange.keptJob source target).begin with loopEnd := some true }

/-- The target with its hash. -/
def Exchange.keptVerifying : Verifying where
  job := exchange.keptJob source target
  targetWritePath := (exchange.keptJob source target).targetWritePath
  stored := []
  content := if exchange.accept.checksum then whole else []
  actualHash :=
    if exchange.accept.checksum then sha256Hex whole else "NONE"

/-- The peer that waits for the hash of the source. -/
def Exchange.comparing : Peer :=
  { exchange.reopened rightFiles source target with
    receiver := .verifying (exchange.keptVerifying source whole target) }

/-- The peer that has the hash of the source. -/
def Exchange.told : Peer :=
  (exchange.comparing rightFiles source whole target).handleControl
    ⟨.fileSent (exchange.sentHash source), 0⟩ .none

/-- The peer that compares the hashes. -/
def Exchange.progressed : Peer :=
  Peer.emit
    { exchange.told rightFiles source whole target with hashQueue := [] }
    (.transferProgress source.length source.length true)

/-- The peer that has found nothing wrong and committed the target. -/
def Exchange.satisfied (touched : List UnixPath) (files : Files) : Peer :=
  ((exchange.progressed rightFiles source whole target).touch touched
    files).completeReceive (exchange.keptVerifying source whole target)
      (exchange.sentHash source)

/-- A target of the size of the source is kept. -/
structure Exchange.Prepares : Prop where
  positive : 0 < source.length
  isSource :
    leftFiles (components exchange.offer.path) = some (.file source)
  taken :
    (exchange.accepting rightFiles).handleMetadata
        (offeredName exchange.offer.path) source.length
        exchange.offer.resume exchange.offer.checksum 0 .none =
      (exchange.prepared rightFiles source target).offerResume
        (exchange.keptJob source target)
        (exchange.keptJob source target).targetWritePath .none
  isTarget :
    target.files (exchange.keptJob source target).targetWritePath =
      some (.file whole)
  parents :
    ∀ path ∈ (exchange.keptJob source target).ancestors,
      ∃ length, target.files path = some (.directory length)

variable {exchange leftFiles rightFiles source whole target}
  (prepares :
    exchange.Prepares leftFiles rightFiles source whole target)

include prepares

theorem keeping_asks :
    (exchange.keeping rightFiles source target).outbox =
      [⟨.resumeReady source.length (some (fingerprintOf whole)), 0⟩] := by
  have isContent :
      target.files.content?
          (exchange.keptJob source target).targetWritePath =
        some whole :=
    FileStore.content?_eq_some.mpr prepares.isTarget
  have isPrefix :
      computePrefixHash target.files
          (exchange.keptJob source target).targetWritePath
          resumeFingerprintSize =
        some (fingerprintOf whole) := by
    rw [computePrefixHash, isContent]
    rfl
  rw [← isPrefix]
  rfl

theorem openTarget_kept :
    (exchange.resuming rightFiles source target).openTarget
        (exchange.keptJob source target) .opened =
      some (exchange.reopened rightFiles source target) := by
  have parents :
      (exchange.resuming rightFiles source target).files.ensureDirectories
          (exchange.keptJob source target).ancestors =
        some target.files :=
    FileStore.ensureDirectories_of_directories prepares.parents
  have isOffset :
      (exchange.keptJob source target).resumeOffset = source.length :=
    rfl
  have opened :
      (exchange.keptJob source target).openTarget target.files =
        some target.files := by
    rw [RecvJob.openTarget, isOffset, if_pos prepares.positive,
      FileStore.openWrite, prepares.isTarget]
  simp only [Peer.openTarget, parents, opened, Option.map_some]
  rfl

theorem closeFile_kept :
    ((exchange.reopened rightFiles source target).withReceiving
          (exchange.keptWhole source target)).closeFile
        (exchange.keptWhole source target) false false =
      some (exchange.comparing rightFiles source whole target) := by
  have isContent :
      target.files.content?
          (exchange.keptJob source target).targetWritePath =
        some whole :=
    FileStore.content?_eq_some.mpr prepares.isTarget
  have rehashes :
      (exchange.keptWhole source target).job.rehashes =
        exchange.accept.checksum := by
    change (exchange.accept.checksum && decide (0 < source.length)) = _
    rw [decide_eq_true prepares.positive, Bool.and_true]
  have inline :
      (exchange.keptWhole source target).job.hashesInline = false := by
    change (exchange.accept.checksum && source.length == 0) = false
    rw [beq_false_of_ne (Nat.ne_of_gt prepares.positive), Bool.and_false]
  have isVerifying :
      ((exchange.reopened rightFiles source target).withReceiving
            (exchange.keptWhole source target)).verifyingOf
          (exchange.keptWhole source target) false =
        exchange.keptVerifying source whole target := by
    have read :
        ((exchange.reopened rightFiles source target).withReceiving
              (exchange.keptWhole source target)).files.content?
            (exchange.keptWhole source target).targetWritePath =
          some whole :=
      isContent
    simp only [Peer.verifyingOf, rehashes, inline, computeFileSha256,
      read]
    rfl
  rw [Exchange.comparing, ← isVerifying]
  rfl

end Accepting

/-! ## The exchange -/

section Keeping

variable {exchange : Exchange} {leftFiles rightFiles : Files}
  {source whole : List UInt8} {target : KeptTarget}

/-- A step of the exchange in which every hash can be computed and no call of
the receiving task fails. -/
def Exchange.Works
    (exchange : Exchange) (link : Link) (label : LinkLabel) : Prop :=
  exchange.Verifies link label ∧ link.receiveWorks label = true

theorem agreeing_run
    (prepares :
      exchange.Prepares leftFiles rightFiles source whole target)
    (agree : fingerprintOf whole = fingerprintOf source) :
    Run linkStep exchange.Works (.initial leftFiles rightFiles)
      (exchange.agreeing ++ [.leftSend .start, .rightRecv .start])
      ⟨exchange.sending leftFiles source,
        exchange.resuming rightFiles source target⟩ := by
  have accepted :
      linkStep (.initial leftFiles rightFiles)
          (.rightCommand
            (.acceptFile exchange.accept.saveDir exchange.accept.checksum
              exchange.accept.resume) .none) =
        some ⟨.initial leftFiles, exchange.accepting rightFiles⟩ :=
    rfl
  have offered :
      linkStep ⟨.initial leftFiles, exchange.accepting rightFiles⟩
          (.leftCommand
            (.sendFile exchange.offer.path exchange.offer.checksum
              exchange.offer.resume) .none) =
        some
          ⟨exchange.offering leftFiles source,
            exchange.accepting rightFiles⟩ := by
    rw [← handleSendFile_offering prepares.isSource]
    rfl
  have kept :
      linkStep
          ⟨exchange.offering leftFiles source,
            exchange.accepting rightFiles⟩
          (.rightControl .none) =
        some
          ⟨(exchange.offering leftFiles source).withOutbox [],
            exchange.keeping rightFiles source target⟩ := by
    rw [Exchange.keeping, ← prepares.taken]
    rfl
  have confirmed :
      linkStep
          ⟨(exchange.offering leftFiles source).withOutbox [],
            exchange.keeping rightFiles source target⟩
          (.leftControl .none) =
        some
          ⟨(exchange.confirming leftFiles source).noteHandled
              (.resumeReady source.length (some (fingerprintOf source))),
            (exchange.keeping rightFiles source target).withOutbox
              []⟩ := by
    have asked := keeping_asks prepares
    rw [agree] at asked
    simp only [linkStep, asked]
    rw [← handleResumeReady_confirming prepares.isSource prepares.positive]
    rfl
  have resumed :
      linkStep
          ⟨(exchange.confirming leftFiles source).noteHandled
              (.resumeReady source.length (some (fingerprintOf source))),
            (exchange.keeping rightFiles source target).withOutbox []⟩
          (.rightControl .none) =
        some
          ⟨((exchange.confirming leftFiles source).noteHandled
              (.resumeReady source.length
                (some (fingerprintOf source)))).withOutbox [],
            ((exchange.keeping rightFiles source target).withOutbox
              []).handleControl ⟨.resumeOk, 0⟩ .none⟩ :=
    rfl
  refine Run.cons ⟨⟨⟨rfl, rfl⟩, rfl⟩, rfl⟩ accepted ?_
  refine Run.cons ⟨⟨⟨rfl, rfl⟩, rfl⟩, rfl⟩ offered ?_
  refine Run.cons ⟨⟨rfl, rfl⟩, rfl⟩ kept ?_
  refine Run.cons ⟨⟨trivial, rfl⟩, rfl⟩ confirmed ?_
  refine Run.cons ⟨⟨rfl, rfl⟩, rfl⟩ resumed ?_
  exact
    Run.cons ⟨⟨trivial, rfl⟩, rfl⟩ rfl
      (Run.single ⟨⟨trivial, rfl⟩, rfl⟩ rfl)

/-- Nothing is read, nothing is sent, and the hash follows. -/
theorem sent_run
    (prepares :
      exchange.Prepares leftFiles rightFiles source whole target) :
    Run linkStep exchange.Works
      ⟨exchange.sending leftFiles source,
        exchange.resuming rightFiles source target⟩
      [.leftSend (.openSource (.opened false)), .leftSend .readEnd,
        .leftSend (.finish false)]
      ⟨exchange.sent leftFiles source,
        exchange.resuming rightFiles source target⟩ := by
  have moves {label : SendLabel} {left next : Peer}
      (taken : left.sendStep label = some next) :
      linkStep ⟨left, exchange.resuming rightFiles source target⟩
          (.leftSend label) =
        some ⟨next, exchange.resuming rightFiles source target⟩ :=
    congrArg
      (Option.map
        (Link.mk · (exchange.resuming rightFiles source target)))
      taken
  refine
    Run.cons ⟨⟨trivial, rfl⟩, rfl⟩ (moves (openSource_kept prepares.isSource)) ?_
  refine
    Run.cons ⟨⟨trivial, rfl⟩, rfl⟩
      (moves (readEnd_kept prepares.isSource prepares.positive)) ?_
  exact
    Run.single ⟨⟨trivial, rfl⟩, rfl⟩
      (moves (finishSending_kept prepares.isSource prepares.positive))

/-- The target is opened and hashed, and no byte is taken. -/
theorem compared_run
    (prepares :
      exchange.Prepares leftFiles rightFiles source whole target) :
    Run linkStep exchange.Works
      ⟨exchange.sent leftFiles source,
        exchange.resuming rightFiles source target⟩
      [.rightRecv (.openTarget .opened), .rightRecv .endReceive,
        .rightRecv (.closeFile false false), .rightControl .none]
      ⟨(exchange.sent leftFiles source).withOutbox [],
        exchange.told rightFiles source whole target⟩ := by
  have moves {label : RecvLabel} {right next : Peer}
      (notReceive : ∀ chunk, label ≠ .receive chunk)
      (taken : right.recvStep label = some next) :
      linkStep ⟨exchange.sent leftFiles source, right⟩
          (.rightRecv label) =
        some ⟨exchange.sent leftFiles source, next⟩ := by
    cases label with
    | receive chunk => exact absurd rfl (notReceive chunk)
    | _ =>
        exact
          congrArg
            (Option.map (Link.mk (exchange.sent leftFiles source))) taken
  have ended :
      (exchange.reopened rightFiles source target).endReceive
          (exchange.keptJob source target).begin =
        some
          ((exchange.reopened rightFiles source target).withReceiving
            (exchange.keptWhole source target)) := by
    have nothing :
        (exchange.keptJob source target).begin.loopEnd = none ∧
          (exchange.keptJob source target).begin.job.fileSize ≤
            (exchange.keptJob source target).begin.totalReceived :=
      ⟨rfl, Nat.le_refl _⟩
    exact if_pos nothing
  refine
    Run.cons ⟨⟨trivial, rfl⟩, rfl⟩
      (moves (fun _ same => by cases same) (openTarget_kept prepares)) ?_
  refine
    Run.cons ⟨⟨trivial, rfl⟩, rfl⟩
      (moves (fun _ same => by cases same) ended) ?_
  refine
    Run.cons ⟨⟨trivial, rfl⟩, rfl⟩
      (moves (fun _ same => by cases same) (closeFile_kept prepares)) ?_
  exact Run.single ⟨⟨rfl, rfl⟩, rfl⟩ rfl

/-- Up to the comparison of the hashes. -/
theorem told_run
    (prepares :
      exchange.Prepares leftFiles rightFiles source whole target)
    (agree : fingerprintOf whole = fingerprintOf source) :
    Run linkStep exchange.Works (.initial leftFiles rightFiles)
      ((exchange.agreeing ++ [.leftSend .start, .rightRecv .start]) ++
        ([.leftSend (.openSource (.opened false)), .leftSend .readEnd,
            .leftSend (.finish false)] ++
          [.rightRecv (.openTarget .opened), .rightRecv .endReceive,
            .rightRecv (.closeFile false false), .rightControl .none]))
      ⟨(exchange.sent leftFiles source).withOutbox [],
        exchange.told rightFiles source whole target⟩ :=
  (agreeing_run prepares agree).append
    ((sent_run prepares).append (compared_run prepares))

/-- The hashes agree unless both sides have one and they differ. -/
theorem hashOk_kept
    (agree :
      exchange.offer.checksum = true → exchange.accept.checksum = true →
        sha256Hex whole = sha256Hex source) :
    hashOk (exchange.sentHash source)
        (exchange.keptVerifying source whole target).actualHash =
      true := by
  rw [Exchange.sentHash, Exchange.keptVerifying]
  by_cases checksum : exchange.offer.checksum = true
  · by_cases accepts : exchange.accept.checksum = true
    · simp only [checksum, accepts, if_true]
      exact (hashOk_sha256Hex source whole).mpr (agree checksum accepts)
    · simp [accepts, hashOk]
  · simp [checksum, hashOk]

theorem verify_passes
    {peer committed : Peer} {verifying : Verifying} {expectedHash : String}
    {rest : List String} (queue : peer.hashQueue = expectedHash :: rest)
    (passes : hashOk expectedHash verifying.actualHash = true)
    (commits :
      (Peer.emit { peer with hashQueue := rest }
          (.transferProgress
            (verifying.job.resumeOffset + verifying.stored.length)
            verifying.job.fileSize true)).commit verifying false =
        some committed) :
    peer.verify verifying false =
      some (committed.completeReceive verifying expectedHash) := by
  simp only [Peer.verify, queue, passes, if_true, commits]

/-- Both sides report that the exchange is complete, once the target has been
committed. -/
theorem completed_run
    (agree :
      exchange.offer.checksum = true → exchange.accept.checksum = true →
        sha256Hex whole = sha256Hex source)
    {touched : List UnixPath} {files : Files}
    (commits :
      (exchange.progressed rightFiles source whole target).commit
          (exchange.keptVerifying source whole target) false =
        some
          ((exchange.progressed rightFiles source whole target).touch
            touched files)) :
    Run linkStep exchange.Verifies
      ⟨(exchange.sent leftFiles source).withOutbox [],
        exchange.told rightFiles source whole target⟩
      [.rightRecv (.verify false), .leftControl .none]
      ⟨((exchange.sent leftFiles source).withOutbox []).handleControl
          ⟨.receivedFileOk, 0⟩ .none,
        (exchange.satisfied rightFiles source whole target touched
          files).withOutbox []⟩ := by
  have passes :
      (exchange.told rightFiles source whole target).verify
          (exchange.keptVerifying source whole target) false =
        some
          (exchange.satisfied rightFiles source whole target touched
            files) :=
    verify_passes rfl (hashOk_kept agree) commits
  have verified :
      linkStep
          ⟨(exchange.sent leftFiles source).withOutbox [],
            exchange.told rightFiles source whole target⟩
          (.rightRecv (.verify false)) =
        some
          ⟨(exchange.sent leftFiles source).withOutbox [],
            exchange.satisfied rightFiles source whole target touched
              files⟩ :=
    congrArg
      (Option.map
        (Link.mk ((exchange.sent leftFiles source).withOutbox [])))
      passes
  refine Run.cons ⟨trivial, rfl⟩ verified ?_
  exact Run.single ⟨trivial, rfl⟩ rfl

/-- A target that is the same for the fingerprint and the digests is kept, and
no byte of the source is sent. -/
theorem prepared_run
    (prepares :
      exchange.Prepares leftFiles rightFiles source whole target)
    (same : fingerprintOf whole = fingerprintOf source)
    (agree :
      exchange.offer.checksum = true → exchange.accept.checksum = true →
        sha256Hex whole = sha256Hex source)
    {touched : List UnixPath} {files : Files}
    (commits :
      (exchange.progressed rightFiles source whole target).commit
          (exchange.keptVerifying source whole target) false =
        some
          ((exchange.progressed rightFiles source whole target).touch
            touched files)) :
    ∃ labels link,
      Run linkStep exchange.Resumes (.initial leftFiles rightFiles) labels
          link ∧
        .transferComplete .completed ∈ link.left.events ∧
          .resumeOk ∈ link.right.handled ∧
            link.left.fileSent = [] ∧ link.right.files = files := by
  have told :=
    (told_run prepares same).weaken fun _ _ works => works.1
  have run := told.append (completed_run agree commits)
  have resumes :=
    @Run.of_labels _ _ _ _ (fun label => label.reads = true) _ _ _ run
      ((@List.all_eq_true _ LinkLabel.reads _).mp rfl)
  exact
    ⟨_, _, resumes, List.mem_append_right _ List.mem_cons_self,
      List.mem_append_left _ (List.mem_append_right _ List.mem_cons_self),
      rfl, rfl⟩

/-! ## A finished file -/

/-- The finished file is kept where it is. -/
def finishedTarget (rightFiles : Files) : KeptTarget where
  usePart := false
  touched := []
  files := rightFiles

theorem Exchange.CanKeep.prepares
    (keeps : exchange.CanKeep leftFiles rightFiles source whole) :
    exchange.Prepares leftFiles rightFiles source whole
      (finishedTarget rightFiles) where
  positive := Nat.lt_of_lt_of_le resumeThresholdBytes_pos keeps.large
  isSource := keeps.isSource
  taken :=
    @handleAccept_keepsDest (exchange.taking rightFiles source)
      (exchange.applied source.length) whole keeps.large keeps.offers
      keeps.accepts keeps.noPart keeps.isDest keeps.sized
  isTarget := keeps.isDest
  parents := keeps.parents

/-- What is the same for the fingerprint and the digests is kept, and no byte
of the source is sent. -/
theorem kept_run
    {dest : List UInt8}
    (keeps : exchange.CanKeep leftFiles rightFiles source dest)
    (same : fingerprintOf dest = fingerprintOf source)
    (agree :
      exchange.offer.checksum = true → exchange.accept.checksum = true →
        sha256Hex dest = sha256Hex source) :
    ∃ labels link,
      Run linkStep exchange.Resumes (.initial leftFiles rightFiles) labels
          link ∧
        .transferComplete .completed ∈ link.left.events ∧
          link.left.fileSent = [] ∧ link.right.files = rightFiles := by
  obtain ⟨labels, link, run, completed, -, sent, files⟩ :=
    @prepared_run exchange leftFiles rightFiles source dest
      (finishedTarget rightFiles) keeps.prepares same agree [] rightFiles rfl
  exact ⟨labels, link, run, completed, sent, files⟩

end Keeping

/-! ## Sources that share their first 64 KiB -/

/-- A source file `a`. -/
def soleSource (source : List UInt8) : Files :=
  FileStore.put (fun _ => none) (components "a") source

/-- The file `a` is offered with resumption and without a checksum. -/
def resumingExchange : Exchange where
  offer := ⟨"a", false, true⟩
  accept := ⟨"in", false, true⟩

/-- A finished file and a source that share their first 64 KiB only. -/
def zerosThen (rest : UInt8) : List UInt8 :=
  List.replicate resumeFingerprintSize 0 ++
    List.replicate (resumeThresholdBytes - resumeFingerprintSize) rest

theorem length_zerosThen (rest : UInt8) :
    (zerosThen rest).length = resumeThresholdBytes := by
  rw [zerosThen, List.length_append, List.length_replicate,
    List.length_replicate]
  rfl

theorem zerosThen_ne : zerosThen 1 ≠ zerosThen 0 := by
  intro same
  have isRest :=
    List.replicate_inj.mp (List.append_cancel_left same)
  obtain ⟨-, isNothing | isEqual⟩ := isRest
  · exact absurd isNothing (by decide)
  · exact absurd isEqual (by decide)

theorem fingerprintOf_zerosThen (rest : UInt8) :
    fingerprintOf (zerosThen rest) =
      sha256Hex (List.replicate resumeFingerprintSize 0) := by
  rw [fingerprintOf, zerosThen, List.take_append_of_le_length]
  · rw [List.take_replicate, Nat.min_self]
  · exact Nat.le_of_eq List.length_replicate.symm

theorem resumingExchange_applied (rest other : UInt8) :
    resumingExchange.applied (zerosThen rest).length =
      resumingAccept (zerosThen other).length := by
  have named : offeredName "a" = "a" := by decide +kernel
  rw [length_zerosThen, length_zerosThen]
  exact congrArg (AppliedAccept.mk _ · _) named

theorem zerosThen_canKeep (rest : UInt8) :
    resumingExchange.CanKeep (soleSource (zerosThen 0))
      (finishedFiles (zerosThen rest)) (zerosThen 0) (zerosThen rest) := by
  have isApplied := resumingExchange_applied 0 rest
  obtain ⟨present, absent, isDirectory⟩ :=
    finishedFiles_paths (zerosThen rest) (zerosThen rest).length
  refine
    { offers := rfl
      accepts := rfl
      large := Nat.le_of_eq (length_zerosThen 0).symm
      sized := (length_zerosThen rest).trans (length_zerosThen 0).symm
      isSource := FileStore.put_same _ _ _
      isDest := ?_
      noPart := ?_
      parents := ?_ }
  · rw [isApplied]
    exact present
  · rw [isApplied]
    exact absent
  · rw [isApplied, resumingAccept_ancestors]
    intro path member
    rw [List.mem_singleton.mp member]
    exact ⟨4096, isDirectory⟩

/-! ## What is left behind -/

section Leaving

variable {exchange : Exchange} {leftFiles rightFiles : Files}
  {source dest : List UInt8}

/-- Two contents with one digest. -/
def Collide (first second : List UInt8) : Prop :=
  first ≠ second ∧ sha256Hex first = sha256Hex second

/-- What a completed exchange leaves behind, if the receiving side had `kept`
to resume. -/
structure Exchange.Leaves
    (exchange : Exchange) (kept source content : List UInt8) : Prop where
  sized : content.length = source.length
  tail : content.drop kept.length = source.drop kept.length
  head :
    content.take resumeFingerprintSize =
        source.take resumeFingerprintSize ∨
      Collide (content.take resumeFingerprintSize)
        (source.take resumeFingerprintSize)
  whole :
    exchange.offer.checksum = true → exchange.accept.checksum = true →
      content = source ∨ Collide content source

theorem leaves_source (exchange : Exchange) (kept source : List UInt8) :
    exchange.Leaves kept source source where
  sized := rfl
  tail := rfl
  head := Or.inl rfl
  whole _ _ := Or.inl rfl

theorem same_or_collide
    {first second : List UInt8}
    (agree : sha256Hex first = sha256Hex second) :
    first = second ∨ Collide first second := by
  by_cases same : first = second
  · exact Or.inl same
  · exact Or.inr ⟨same, agree⟩

theorem Exchange.Mixes.leaves
    {link : Link} {content : List UInt8}
    (mixes : exchange.Mixes rightFiles source link content) :
    exchange.Leaves ((exchange.applied source.length).kept rightFiles)
      source content where
  sized := by
    rw [mixes.whole, List.length_append, List.length_drop]
    exact Nat.add_sub_of_le mixes.fits
  tail := by
    nth_rewrite 1 [mixes.whole]
    exact List.drop_left
  head := by
    have isHead :
        content.take resumeFingerprintSize =
          ((exchange.applied source.length).kept rightFiles).take
            resumeFingerprintSize := by
      rw [mixes.whole]
      exact List.take_append_of_le_length mixes.seen
    rw [isHead]
    exact same_or_collide mixes.fingerprint
  whole checksum accepts :=
    same_or_collide (mixes.digest checksum accepts)

/-- Whatever the receiving side resumes, a completed exchange of a large file
leaves a file of the size of the source.  Behind what was kept it is the
source, and its first 64 KiB are those of the source; with a checksum on both
sides all of it is the source.  A collision of the hash is all that can be in
the way. -/
theorem completed_exchange_content
    {labels : List LinkLabel} {link : Link}
    (large : resumeThresholdBytes ≤ source.length)
    (isSource :
      leftFiles (components exchange.offer.path) = some (.file source))
    (run :
      Run linkStep exchange.Verifies (.initial leftFiles rightFiles) labels
        link)
    (completed : .transferComplete .completed ∈ link.left.events) :
    ∃ content,
      link.right.files (exchange.applied source.length).destPath =
          some (.file content) ∧
        (.resumeOk ∉ link.right.handled → content = source) ∧
          exchange.Leaves
            ((exchange.applied source.length).kept rightFiles) source
            content := by
  obtain ⟨content, present, isSource | mixes⟩ :=
    content_of_completed large isSource run completed
  · refine ⟨content, present, fun _ => isSource, ?_⟩
    rw [isSource]
    exact leaves_source exchange _ source
  · exact
      ⟨content, present, fun fresh => absurd mixes.resumed fresh,
        mixes.leaves⟩

theorem completed_exchange_content_zeros :
    ∃ link : Link, ∃ content,
      .transferComplete .completed ∈ link.left.events ∧
      link.right.files
            (resumingExchange.applied (zerosThen 0).length).destPath =
          some (.file content) ∧
        (.resumeOk ∉ link.right.handled → content = zerosThen 0) ∧
          resumingExchange.Leaves
            ((resumingExchange.applied (zerosThen 0).length).kept
              (finishedFiles (zerosThen 1)))
            (zerosThen 0) content := by
  have same : fingerprintOf (zerosThen 1) = fingerprintOf (zerosThen 0) := by
    rw [fingerprintOf_zerosThen, fingerprintOf_zerosThen]
  obtain ⟨labels, link, run, completed, -⟩ :=
    kept_run (zerosThen_canKeep 1) same (fun checksum => by cases checksum)
  obtain ⟨content, leaves⟩ :=
    completed_exchange_content (zerosThen_canKeep 1).large
      (zerosThen_canKeep 1).isSource
      (run.weaken fun _ _ resumes => resumes.1) completed
  exact ⟨link, content, completed, leaves⟩

/-- A finished file of the size of the source is kept as it is, whatever it
contains behind its first 64 KiB, exactly if the fingerprints agree, and with a
checksum on both sides the digests. -/
theorem finished_file_kept_iff
    (keeps : exchange.CanKeep leftFiles rightFiles source dest) :
    (∃ labels link,
        Run linkStep exchange.Verifies (.initial leftFiles rightFiles)
            labels link ∧
          .transferComplete .completed ∈ link.left.events ∧
            link.right.files (exchange.applied source.length).destPath =
              some (.file dest)) ↔
      fingerprintOf dest = fingerprintOf source ∧
        (exchange.offer.checksum = true →
          exchange.accept.checksum = true →
            sha256Hex dest = sha256Hex source) := by
  constructor
  · rintro ⟨labels, link, run, completed, present⟩
    obtain ⟨content, isContent, isSource | mixes⟩ :=
      content_of_completed keeps.large keeps.isSource run completed
    · rw [present] at isContent
      rw [Node.file.inj (Option.some.inj isContent), isSource]
      exact ⟨rfl, fun _ _ => rfl⟩
    · rw [present] at isContent
      rw [← Node.file.inj (Option.some.inj isContent)] at mixes
      have isKept := kept_dest keeps.noPart keeps.isDest keeps.sized
      have fingerprint := mixes.fingerprint
      rw [isKept] at fingerprint
      exact ⟨fingerprint, mixes.digest⟩
  · rintro ⟨same, agree⟩
    obtain ⟨labels, link, run, completed, -, files⟩ :=
      kept_run keeps same agree
    refine
      ⟨labels, link, run.weaken fun _ _ resumes => resumes.1, completed,
        ?_⟩
    rw [files]
    exact keeps.isDest

/-- An exchange can complete and leave a file that is not the source. -/
theorem finished_file_kept_iff_zeros :
    zerosThen 1 ≠ zerosThen 0 ∧
      ∃ labels link,
        Run linkStep resumingExchange.Verifies
            (.initial (soleSource (zerosThen 0))
              (finishedFiles (zerosThen 1)))
            labels link ∧
          .transferComplete .completed ∈ link.left.events ∧
            link.right.files
                (resumingExchange.applied (zerosThen 0).length).destPath =
              some (.file (zerosThen 1)) := by
  refine
    ⟨zerosThen_ne, (finished_file_kept_iff (zerosThen_canKeep 1)).mpr ?_⟩
  refine ⟨?_, fun checksum => by cases checksum⟩
  rw [fingerprintOf_zerosThen, fingerprintOf_zerosThen]

end Leaving

end Quiczilla
