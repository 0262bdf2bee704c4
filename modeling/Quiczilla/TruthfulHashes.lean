import Quiczilla.InterruptedExchanges
import Quiczilla.LivelyExchange

/-!
# Truthful hashes

If whatever is kept is a front of the source, every hash on either side is
`NONE` or that of the source, so that no comparison fails.
-/

namespace Quiczilla

open Foundation

/-- Not computed, or the hash of the source. -/
def Vouches (source : List UInt8) (hash : String) : Prop :=
  hash = "NONE" ∨ hash = sha256Hex source

theorem hashOk_of_vouches
    {source : List UInt8} {expectedHash actualHash : String}
    (expected : Vouches source expectedHash)
    (actual : Vouches source actualHash) :
    hashOk expectedHash actualHash = true := by
  rcases expected with rfl | rfl
  · rfl
  · rcases actual with rfl | rfl
    · simp [hashOk]
    · simp [hashOk, eqIgnoreAsciiCase]

/-! ## The sending side -/

section Sending

variable {exchange : Exchange} {source : List UInt8} {peer next : Peer}

/-- The reader has ended with a hash of the source. -/
def Peer.ReadsVouched (source : List UInt8) (peer : Peer) : Prop :=
  ∀ stream hash, peer.sender = .streaming stream →
    stream.reader = .finished hash → Vouches source hash

theorem inlineHash_vouches
    {stream : SendStream} (hashes : stream.Hashes exchange source)
    (atEnd : source.length ≤ stream.position) :
    Vouches source stream.inlineHash := by
  rw [SendStream.inlineHash]
  split
  · rename_i inline
    have isZero : stream.job.resumeOffset = 0 := by
      rw [SendJob.hashesInline] at inline
      simp at inline
      exact inline.2
    rw [hashes.hashed isZero, List.take_of_length_le atEnd]
    exact Or.inr rfl
  · exact Or.inl rfl

theorem finalHash_vouches
    {stream : SendStream} {inlineHash : String} (rehashFails : Bool)
    (hashes : stream.Hashes exchange source)
    (isSource :
      peer.files (components exchange.offer.path) = some (.file source))
    (vouched : Vouches source inlineHash) :
    Vouches source (peer.finalHash stream inlineHash rehashFails) := by
  have isContent :
      computeFileSha256 peer.files (components stream.job.path) =
        some (sha256Hex source) := by
    rw [computeFileSha256, hashes.sends.path,
      FileStore.content?_eq_some.mpr isSource]
    rfl
  rw [Peer.finalHash, isContent]
  split
  · split
    · exact Or.inl rfl
    · exact Or.inr rfl
  · exact vouched

theorem sendStep_readsVouched
    {label : SendLabel} (reads : peer.ReadsVouched source)
    (hashes : peer.Hashes exchange source)
    (isSource :
      peer.files (components exchange.offer.path) = some (.file source))
    (stepped : peer.sendStep label = some next) :
    next.ReadsVouched source := by
  intro other hash isStreaming isFinished
  cases sendStep_effect stepped with
  | read stream length bytes phase isReading =>
      cases isStreaming
      cases isReading.symm.trans isFinished
  | readEnded stream content phase isReading isContent atEnd =>
      cases isStreaming
      cases isFinished
      have before := hashes.streaming stream phase
      rw [sourceContent_of_file before.sends isSource] at isContent
      cases isContent
      exact inlineHash_vouches before atEnd
  | took stream chunk rest phase =>
      cases isStreaming
      exact reads stream hash phase isFinished
  | wrote stream chunk phase =>
      cases isStreaming
      exact reads stream hash phase isFinished
  | reported stream => exact reads other hash isStreaming isFinished
  | opened job totalBytes phase =>
      cases isStreaming
      cases isFinished
  | readFailed stream phase =>
      cases isStreaming
      cases isFinished
  | _ => cases isStreaming

end Sending

/-! ## The link -/

/-- The hashes that are computed, under way, waiting or compared are those of
the source. -/
structure Link.Truthful (source : List UInt8) (link : Link) : Prop where
  reads : link.left.ReadsVouched source
  announced :
    ∀ hash, .fileSent hash ∈ link.left.finals → Vouches source hash
  queued : ∀ hash ∈ link.right.hashQueue, Vouches source hash
  computed :
    ∀ verifying, link.right.receiver = .verifying verifying →
      Vouches source verifying.actualHash

namespace Link.Truthful

variable {exchange : Exchange} {leftFiles rightFiles : Files}
  {source : List UInt8} {link next : Link}

theorem initial (source : List UInt8) (leftFiles rightFiles : Files) :
    (Link.initial leftFiles rightFiles).Truthful source where
  reads _ _ isStreaming := by cases isStreaming
  announced _ member := by cases member
  queued _ member := by cases member
  computed _ isVerifying := by cases isVerifying

/-- A step of the sending loop says nothing about the end. -/
theorem leftLoop
    {label : PeerLabel} {left : Peer} {outbox : List Letter}
    (truthful : link.Truthful source) (isLoop : label.isLoop = true)
    (silent :
      (link.left.finalSide.after label).finals = link.left.finals)
    (taken : peerStep link.left label = some left) :
    Link.Truthful source ⟨left, link.right.withOutbox outbox⟩ := by
  obtain ⟨side, sender, -⟩ := loopStep_finalSide isLoop taken
  have finals : left.finals = link.left.finals :=
    (congrArg FinalSide.finals side).trans silent
  constructor
  case reads =>
    intro stream hash isStreaming
    apply truthful.reads
    exact sender.symm.trans isStreaming
  case announced =>
    change ∀ hash, .fileSent hash ∈ left.finals → _
    rw [finals]
    exact truthful.announced
  case queued => exact truthful.queued
  case computed => exact truthful.computed

theorem rightLoop
    {label : PeerLabel} {right : Peer} {outbox : List Letter}
    (truthful : link.Truthful source) (isLoop : label.isLoop = true)
    (finals :
      ∀ hash, .fileSent hash ∈ (link.left.withOutbox outbox).finals →
        .fileSent hash ∈ link.left.finals)
    (hashes :
      ∀ hash ∈ (link.right.finalSide.after label).hashQueue,
        hash ∈ link.right.hashQueue ∨ .fileSent hash ∈ link.left.finals)
    (taken : peerStep link.right label = some right) :
    Link.Truthful source ⟨link.left.withOutbox outbox, right⟩ := by
  obtain ⟨side, -, receiver⟩ := loopStep_finalSide isLoop taken
  constructor
  case reads => exact truthful.reads
  case announced =>
    exact fun hash member => truthful.announced hash (finals hash member)
  case queued =>
    rw [← side] at hashes
    intro hash member
    rcases hashes hash member with earlier | now
    · exact truthful.queued hash earlier
    · exact truthful.announced hash now
  case computed =>
    change ∀ verifying, right.receiver = .verifying verifying → _
    rw [receiver]
    exact truthful.computed

/-- The stored file is the source. -/
theorem task
    {left right : Peer} {label : RecvLabel}
    (truthful : link.Truthful source)
    (runs : exchange.Runs leftFiles rightFiles source.length link)
    (filling : link.right.recvSide.Filling source rightFiles)
    (reads : left.ReadsVouched source)
    (finals : left.finals = link.left.finals)
    (taken : link.right.recvStep label = some right) :
    Link.Truthful source ⟨left, right⟩ := by
  constructor
  case reads => exact reads
  case announced =>
    change ∀ hash, .fileSent hash ∈ left.finals → _
    rw [finals]
    exact truthful.announced
  case queued =>
    intro hash member
    exact truthful.queued hash (recvStep_hashQueue taken hash member)
  case computed =>
    intro verifying isVerifying
    cases recvStep_effect taken with
    | closed current flushFails rehashFails isLabel phase ended alive
        drained =>
        cases isVerifying
        have isAccepted := runs.sole.jobs.active
        have active : link.right.recvSide.receiver = .receiving current :=
          phase
        rw [active] at isAccepted
        obtain ⟨content, present, whole⟩ :=
          @closed_holds rightFiles link.right current rehashFails
            (runs.sole.receiving current phase) ended drained
        have sized : content.length = source.length :=
          whole.size.trans isAccepted.1.fileSize
        have isFront : content <+: source :=
          filling.receiving current phase content present
        have isSource : content = source := isFront.eq_of_length sized
        by_cases checksum : current.job.checksum = true
        · have isContent := whole.hashed checksum
          rcases verifyingOf_computed link.right current rehashFails with
            none | isHash
          · exact Or.inl none
          · rw [isContent, isSource] at isHash
            exact Or.inr isHash
        · refine Or.inl ?_
          simp [Peer.verifyingOf, RecvJob.rehashes, RecvJob.hashesInline,
            checksum]
    | reported current => exact truthful.computed verifying isVerifying
    | _ => cases isVerifying

theorem step
    {label : LinkLabel} (truthful : link.Truthful source)
    (runs : exchange.Runs leftFiles rightFiles source.length link)
    (isSource :
      leftFiles (components exchange.offer.path) = some (.file source))
    (hashes : link.left.Hashes exchange source)
    (filling : link.right.recvSide.Filling source rightFiles)
    (stepped : linkStep link label = some next) :
    next.Truthful source := by
  have isLeft :
      link.left.files (components exchange.offer.path) =
        some (.file source) := by
    rw [runs.underway.sources]
    exact isSource
  cases linkStep_effect stepped with
  | leftCommand command faults left isSend taken =>
      refine @leftLoop _ _ _ left link.right.outbox truthful rfl ?_ taken
      rw [after_sends _ faults isSend]
      rfl
  | leftControl faults letter rest left arrived taken =>
      exact truthful.leftLoop rfl rfl taken
  | leftEnds reason left taken =>
      exact
        @leftLoop _ _ _ left link.right.outbox truthful rfl rfl taken
  | leftSend label left taken =>
      refine
        ⟨sendStep_readsVouched truthful.reads hashes isLeft taken, ?_,
          truthful.queued, truthful.computed⟩
      intro hash member
      rcases sendStep_finals taken with
        same | ⟨stream, inlineHash, rehashFails, -, phase, isFinished,
          isNext⟩
      · rw [same] at member
        exact truthful.announced hash member
      · rw [isNext] at member
        rcases List.mem_append.mp member with earlier | last
        · exact truthful.announced hash earlier
        · rw [ControlMessage.fileSent.inj (List.mem_singleton.mp last)]
          exact
            finalHash_vouches rehashFails (hashes.streaming stream phase)
              isLeft (truthful.reads stream inlineHash phase isFinished)
  | rightCommand command faults right receives taken =>
      refine
        @rightLoop _ _ _ right link.left.outbox truthful rfl
          (fun _ member => member) ?_ taken
      cases command <;> exact fun hash member => Or.inl member
  | rightControl faults letter rest right arrived taken =>
      have finals := finals_of_outbox arrived
      refine truthful.rightLoop rfl ?_ ?_ taken
      · intro hash member
        rw [finals]
        exact List.mem_append_right _ member
      · intro hash member
        rcases List.mem_append.mp member with before | new
        · exact Or.inl before
        · refine Or.inr ?_
          have isHash : letter.message = .fileSent hash := by
            cases isMessage : letter.message with
            | fileSent other =>
                rw [isMessage] at new
                rw [List.mem_singleton.mp new]
            | _ =>
                rw [isMessage] at new
                cases new
          rw [finals, isHash]
          exact List.mem_cons_self
  | rightEnds reason right taken =>
      exact
        @rightLoop _ _ (.loopEnds reason) right link.left.outbox truthful rfl
          (fun _ member => member) (fun _ member => Or.inl member) taken
  | received chunk rest right isFront taken =>
      exact truthful.task runs filling truthful.reads rfl taken
  | rightRecv label right notReceive taken =>
      exact truthful.task runs filling truthful.reads rfl taken

end Link.Truthful

end Quiczilla
