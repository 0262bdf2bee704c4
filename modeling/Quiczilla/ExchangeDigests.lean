import Quiczilla.Reconstruction
import Quiczilla.Verification

/-!
# The digest of an exchange

If the sending side verifies and every file that is to be hashed can be read,
each `FILE_SENT` carries the digest of the source, and every receive is
compared with it.
-/

namespace Quiczilla

open Foundation

/-- Whether the hash that the step computes can be computed. -/
def LinkLabel.hashes : LinkLabel → Bool
  | .leftControl faults => !faults.fingerprint
  | .leftSend (.finish rehashFails) => !rehashFails
  | .rightRecv (.closeFile _ rehashFails) => !rehashFails
  | _ => true

/-- The job sends the offer. -/
structure Exchange.Sends (exchange : Exchange) (job : SendJob) : Prop where
  path : job.path = exchange.offer.path
  checksum : job.checksum = exchange.offer.checksum

/-- The disk reader hashes what it has read of the source. -/
structure SendStream.Hashes
    (exchange : Exchange) (source : List UInt8) (stream : SendStream) :
    Prop where
  sends : exchange.Sends stream.job
  hashed :
    stream.job.resumeOffset = 0 →
      stream.hashed = source.take stream.position
  ended :
    ∀ hash, stream.reader = .finished hash →
      stream.job.hashesInline = true → hash = sha256Hex source

/-- Every send of the peer is for the offer. -/
structure Peer.Hashes
    (exchange : Exchange) (source : List UInt8) (peer : Peer) : Prop where
  queued : ∀ job ∈ peer.sendQueue, exchange.Sends job
  opening : ∀ job, peer.sender = .opening job → exchange.Sends job
  streaming :
    ∀ stream, peer.sender = .streaming stream →
      stream.Hashes exchange source

theorem hashes_initial
    (exchange : Exchange) (source : List UInt8) (files : Files) :
    (Peer.initial files).Hashes exchange source where
  queued _ member := by cases member
  opening _ isOpening := by cases isOpening
  streaming _ isStreaming := by cases isStreaming

/-! ## The send task -/

section Sending

variable {exchange : Exchange} {source : List UInt8} {peer next : Peer}
  {label : SendLabel}

theorem sourceContent_of_file
    {job : SendJob} (sends : exchange.Sends job)
    (isSource :
      peer.files (components exchange.offer.path) = some (.file source)) :
    peer.source job.path = some source := by
  rw [Peer.source, sends.path]
  exact FileStore.content?_eq_some.mpr isSource

/-- The job is taken, or the task is between two jobs. -/
theorem Peer.Hashes.withSender
    (hashes : peer.Hashes exchange source)
    (queue : ∀ job ∈ next.sendQueue, job ∈ peer.sendQueue)
    (opening : ∀ job, next.sender = .opening job → exchange.Sends job)
    (streaming :
      ∀ stream, next.sender = .streaming stream →
        stream.Hashes exchange source) :
    next.Hashes exchange source where
  queued job member := hashes.queued job (queue job member)
  opening := opening
  streaming := streaming

/-- A step of the send task hashes what it reads. -/
theorem Peer.Hashes.send
    (hashes : peer.Hashes exchange source)
    (isSource :
      peer.files (components exchange.offer.path) = some (.file source))
    (stepped : peer.sendStep label = some next) :
    next.Hashes exchange source := by
  -- The task goes on with the stream, or leaves it.
  have streams {others : Peer} {stream : SendStream}
      (queue : others.sendQueue = peer.sendQueue)
      (sender : others.sender = .streaming stream)
      (isHashed : stream.Hashes exchange source) :
      others.Hashes exchange source := by
    refine hashes.withSender ?_ ?_ ?_
    · rw [queue]
      exact fun job member => member
    · intro job isOpening
      rw [sender] at isOpening
      cases isOpening
    · intro other isStreaming
      rw [sender] at isStreaming
      cases isStreaming
      exact isHashed
  have leaves {others : Peer} (queue : others.sendQueue = peer.sendQueue)
      (sender : others.sender = .idle) :
      others.Hashes exchange source := by
    refine hashes.withSender ?_ ?_ ?_
    · rw [queue]
      exact fun job member => member
    · intro job isOpening
      rw [sender] at isOpening
      cases isOpening
    · intro other isStreaming
      rw [sender] at isStreaming
      cases isStreaming
  cases sendStep_effect stepped with
  | started job rest isIdle isQueue =>
      refine hashes.withSender ?_ ?_ ?_
      · intro other member
        rw [isQueue]
        exact List.mem_cons_of_mem _ member
      · intro other isOpening
        cases isOpening
        apply hashes.queued
        rw [isQueue]
        exact List.mem_cons_self
      · intro stream isStreaming
        cases isStreaming
  | openFailed job reason isOpening => exact leaves rfl rfl
  | opened job totalBytes isOpening =>
      refine streams rfl rfl ?_
      refine ⟨hashes.opening job isOpening, ?_, ?_⟩
      · intro isZero
        have isStart : (job.begin totalBytes).position = 0 := isZero
        rw [isStart, List.take_zero]
        rfl
      · intro hash isFinished
        cases isFinished
  | read stream length bytes isStreaming isReading isRead full =>
      have before := hashes.streaming stream isStreaming
      refine streams rfl rfl ⟨before.sends, ?_, ?_⟩
      · intro isZero
        have isContent : peer.sourceContent stream.job = source := by
          rw [Peer.sourceContent, sourceContent_of_file before.sends isSource,
            Option.getD_some]
        change stream.hashed ++ bytes = source.take (stream.position + length)
        rw [before.hashed isZero, isRead, isContent]
        exact List.take_add.symm
      · intro hash isFinished
        have isFinished : stream.reader = .finished hash := isFinished
        rw [isReading] at isFinished
        cases isFinished
  | readEnded stream content isStreaming isReading isContent atEnd =>
      have before := hashes.streaming stream isStreaming
      refine streams rfl rfl ⟨before.sends, before.hashed, ?_⟩
      intro hash isFinished inline
      have inline : stream.job.hashesInline = true := inline
      cases isFinished
      have isZero : stream.job.resumeOffset = 0 := by
        rw [SendJob.hashesInline] at inline
        simp at inline
        exact inline.2
      rw [sourceContent_of_file before.sends isSource] at isContent
      cases isContent
      rw [SendStream.inlineHash, if_pos inline, before.hashed isZero,
        List.take_of_length_le atEnd]
  | readFailed stream isStreaming =>
      have before := hashes.streaming stream isStreaming
      refine streams rfl rfl ⟨before.sends, before.hashed, ?_⟩
      intro hash isFinished
      cases isFinished
  | took stream chunk rest isStreaming =>
      have before := hashes.streaming stream isStreaming
      exact streams rfl rfl ⟨before.sends, before.hashed, before.ended⟩
  | wrote stream chunk isStreaming =>
      have before := hashes.streaming stream isStreaming
      exact streams rfl rfl ⟨before.sends, before.hashed, before.ended⟩
  | wroteStopped stream chunk length isStreaming => exact leaves rfl rfl
  | reported stream =>
      exact
        hashes.withSender (fun job member => member) hashes.opening
          hashes.streaming
  | gaveUp stream isStreaming => exact leaves rfl rfl
  | finished stream inlineHash rehashFails isStreaming =>
      exact leaves rfl rfl

/-- Only the end of a send says something. -/
theorem sendStep_outbox
    (notFinish : ∀ rehashFails, label ≠ .finish rehashFails)
    (stepped : peer.sendStep label = some next) :
    next.outbox = peer.outbox := by
  unfold Peer.sendStep at stepped
  split at stepped
  case h_1 isIdle =>
    split at stepped <;> cases stepped
    rfl
  case h_2 job outcome isOpening =>
    simp only [Peer.openSource] at stepped
    split at stepped
    · cases stepped
      rfl
    · cases stepped
    · split at stepped <;> cases stepped
      rfl
    · cases stepped
      rfl
  case h_3 stream length isStreaming =>
    simp only [Peer.readChunk] at stepped
    split at stepped <;> cases stepped
    rfl
  case h_4 stream isStreaming =>
    simp only [Peer.readEnd] at stepped
    split at stepped
    · split at stepped <;> cases stepped
      rfl
    · cases stepped
  case h_5 stream isStreaming =>
    split at stepped <;> cases stepped
    rfl
  case h_6 stream isStreaming =>
    split at stepped <;> cases stepped
    rfl
  case h_7 stream isStreaming =>
    simp only [Peer.writeChunk] at stepped
    split at stepped
    · split at stepped
      · cases stepped
      · split at stepped <;> cases stepped <;> rfl
    · cases stepped
  case h_8 stream length isStreaming =>
    simp only [Peer.writeStops] at stepped
    split at stepped
    · split at stepped <;> cases stepped
      rfl
    · cases stepped
  case h_9 stream isStreaming =>
    cases stepped
    rfl
  case h_10 stream rehashFails isStreaming =>
    exact absurd rfl (notFinish rehashFails)
  case h_11 => cases stepped

/-- Only the end of a send says something about the end of a transfer. -/
theorem sendStep_finals
    (stepped : peer.sendStep label = some next) :
    next.finals = peer.finals ∨
      ∃ stream inlineHash rehashFails,
        label = .finish rehashFails ∧
          peer.sender = .streaming stream ∧
            stream.reader = .finished inlineHash ∧
              next.finals =
                peer.finals ++
                  [.fileSent
                    (peer.finalHash stream inlineHash rehashFails)] := by
  by_cases isFinish : ∃ rehashFails, label = .finish rehashFails
  · obtain ⟨rehashFails, isLabel⟩ := isFinish
    subst isLabel
    unfold Peer.sendStep at stepped
    cases isSender : peer.sender with
    | streaming stream =>
        rw [isSender] at stepped
        simp only [Peer.finishSending] at stepped
        split at stepped
        · split at stepped
          · cases stepped
          · cases stepped
            exact Or.inl rfl
          · rename_i inlineHash isFinished
            cases stepped
            refine
              Or.inr
                ⟨stream, inlineHash, rehashFails, rfl, rfl, isFinished, ?_⟩
            simp [Peer.finals, Peer.send, Peer.emit,
              ControlMessage.isFinal, ControlMessage.hash?]
        · cases stepped
    | _ =>
        rw [isSender] at stepped
        cases stepped
  · refine Or.inl ?_
    have sameOutbox :=
      sendStep_outbox
        (fun rehashFails same => isFinish ⟨rehashFails, same⟩) stepped
    rw [Peer.finals, Peer.finals, sameOutbox]

/-- A send that verifies ends with the digest of the source. -/
theorem finalHash_eq
    {stream : SendStream} {inlineHash : String}
    (hashes : stream.Hashes exchange source)
    (isSource :
      peer.files (components exchange.offer.path) = some (.file source))
    (checksum : exchange.offer.checksum = true)
    (isFinished : stream.reader = .finished inlineHash) :
    peer.finalHash stream inlineHash false = sha256Hex source := by
  have isChecksum : stream.job.checksum = true :=
    hashes.sends.checksum.trans checksum
  by_cases positive : 0 < stream.job.resumeOffset
  · have isContent :
        peer.files.content? (components stream.job.path) = some source := by
      rw [hashes.sends.path]
      exact FileStore.content?_eq_some.mpr isSource
    simp [Peer.finalHash, isChecksum, positive, computeFileSha256, isContent]
  · have isZero : stream.job.resumeOffset = 0 := by
      omega
    have inline : stream.job.hashesInline = true := by
      rw [SendJob.hashesInline, isChecksum, isZero]
      rfl
    have isHash := hashes.ended inlineHash isFinished inline
    simp [Peer.finalHash, isZero, isHash]

theorem sendStep_announces
    (hashes : peer.Hashes exchange source)
    (isSource :
      peer.files (components exchange.offer.path) = some (.file source))
    (checksum : exchange.offer.checksum = true)
    (works : (LinkLabel.leftSend label).hashes = true)
    (stepped : peer.sendStep label = some next) :
    ∀ hash, .fileSent hash ∈ next.finals →
      .fileSent hash ∈ peer.finals ∨ hash = sha256Hex source := by
  intro hash member
  obtain same | ⟨stream, inlineHash, rehashFails, isLabel, isStreaming,
      isFinished, isNext⟩ := sendStep_finals stepped
  · rw [same] at member
    exact Or.inl member
  · rw [isNext] at member
    obtain earlier | last := List.mem_append.mp member
    · exact Or.inl earlier
    · have succeeds : rehashFails = false := by
        rw [isLabel] at works
        simpa [LinkLabel.hashes] using works
      have isHash :=
        @finalHash_eq _ _ peer _ _ (hashes.streaming stream isStreaming)
          isSource checksum isFinished
      rw [succeeds, isHash] at last
      exact Or.inr (ControlMessage.fileSent.inj (List.mem_singleton.mp last))

/-- The loop starts sends for the offer only. -/
theorem Peer.Hashes.loop
    {label : PeerLabel} {answer : Option Answer} {faults : Faults}
    (hashes : peer.Hashes exchange source)
    (once : peer.SendsOnce exchange) (isLoop : label.isLoop = true)
    (stepped : peerStep peer label = some next)
    (effect : OfferingEffect peer answer faults next.offering) :
    next.Hashes exchange source := by
  have tasks := loopStep_taskSide isLoop stepped
  have sameSender : next.sender = peer.sender :=
    congrArg TaskSide.sender tasks
  have queues (queue : ∀ job ∈ next.sendQueue, exchange.Sends job) :
      next.Hashes exchange source := by
    refine ⟨queue, ?_, ?_⟩
    · rw [sameSender]
      exact hashes.opening
    · rw [sameSender]
      exact hashes.streaming
  have same (isQueue : next.sendQueue = peer.sendQueue) :
      next.Hashes exchange source := by
    apply queues
    rw [isQueue]
    exact hashes.queued
  have added {pending : PendingSend} {offset number : Nat}
      (waits : peer.coordinator.pendingSendPath = some pending)
      (isQueue :
        next.sendQueue =
          peer.sendQueue ++ [SendJob.of pending offset number]) :
      next.Hashes exchange source := by
    apply queues
    rw [isQueue]
    intro job member
    obtain earlier | last := List.mem_append.mp member
    · exact hashes.queued job earlier
    · obtain ⟨-, isPath, isChecksum⟩ := once.asked pending waits
      rw [List.mem_singleton.mp last]
      exact ⟨isPath, isChecksum⟩
  cases effect with
  | quiet noAnswer isNext => exact same (congrArg Offering.sendQueue isNext)
  | announced pending size noAnswer measured isNext =>
      exact same (congrArg Offering.sendQueue isNext)
  | started taken pending isTaken waits fromZero isNext =>
      exact added waits (congrArg Offering.sendQueue isNext)
  | confirmed number offset prefixHash pending isTaken waits positive agree
      isNext =>
      exact added waits (congrArg Offering.sendQueue isNext)
  | refuted number offset prefixHash pending isTaken waits positive other
      isNext =>
      exact same (congrArg Offering.sendQueue isNext)

end Sending

/-! ## The receive task -/

/-- The task takes hashes from its queue and adds none. -/
theorem recvStep_hashQueue
    {peer next : Peer} {label : RecvLabel}
    (stepped : peer.recvStep label = some next) :
    ∀ hash ∈ next.hashQueue, hash ∈ peer.hashQueue := by
  have taken {rest : List String} {expectedHash : String}
      (isQueue : peer.hashQueue = expectedHash :: rest)
      (isNext : next.hashQueue = rest) :
      ∀ hash ∈ next.hashQueue, hash ∈ peer.hashQueue := by
    rw [isNext, isQueue]
    exact fun hash member => List.mem_cons_of_mem _ member
  have same (isNext : next.hashQueue = peer.hashQueue) :
      ∀ hash ∈ next.hashQueue, hash ∈ peer.hashQueue := by
    rw [isNext]
    exact fun hash member => member
  cases recvStep_verdict stepped with
  | silent _ _ isNext => exact same (congrArg FinalSide.hashQueue isNext)
  | judged comparison rest message _ _ isQueue _ _ isNext =>
      exact taken isQueue (congrArg FinalSide.hashQueue isNext)
  | uncommitted comparison rest _ _ isQueue _ _ isNext =>
      exact taken isQueue (congrArg FinalSide.hashQueue isNext)
  | gaveUp _ _ _ isNext => exact same (congrArg FinalSide.hashQueue isNext)

/-- A receive is compared with a hash from the queue. -/
theorem recvStep_compared
    {peer next : Peer} {label : RecvLabel}
    (stepped : peer.recvStep label = some next) :
    ∀ receipt ∈ next.receipts,
      receipt ∈ peer.receipts ∨ receipt.expectedHash ∈ peer.hashQueue := by
  have same (isNext : next.receipts = peer.receipts) :
      ∀ receipt ∈ next.receipts,
        receipt ∈ peer.receipts ∨
          receipt.expectedHash ∈ peer.hashQueue := by
    rw [isNext]
    exact fun receipt member => Or.inl member
  have added {verifying : Verifying} {expectedHash : String}
      {rest : List String}
      (isQueue : peer.hashQueue = expectedHash :: rest)
      (isNext : next.receipts = peer.receipts ++ [⟨verifying, expectedHash⟩]) :
      ∀ receipt ∈ next.receipts,
        receipt ∈ peer.receipts ∨
          receipt.expectedHash ∈ peer.hashQueue := by
    rw [isNext, isQueue]
    intro receipt member
    obtain earlier | last := List.mem_append.mp member
    · exact Or.inl earlier
    · rw [List.mem_singleton.mp last]
      exact Or.inr List.mem_cons_self
  cases recvStep_effect stepped with
  | completed verifying expectedHash rest isVerifying isQueue =>
      exact added isQueue rfl
  | committed verifying expectedHash rest renamed isVerifying isQueue =>
      exact added isQueue rfl
  | _ => exact same rfl

/-! ## The link -/

/-- Every digest of the exchange is that of the source. -/
structure Exchange.Digested
    (exchange : Exchange) (source : List UInt8) (link : Link) : Prop where
  sender : link.left.Hashes exchange source
  announced :
    ∀ hash, .fileSent hash ∈ link.left.finals → hash = sha256Hex source
  queued : ∀ hash ∈ link.right.hashQueue, hash = sha256Hex source
  compared :
    ∀ receipt ∈ link.right.receipts,
      receipt.expectedHash = sha256Hex source
  checked : link.right.recvSide.Checked

namespace Exchange.Digested

variable {exchange : Exchange} {leftFiles rightFiles : Files}
  {source : List UInt8} {link next : Link} {size : Nat}

theorem initial
    (exchange : Exchange) (source : List UInt8)
    (leftFiles rightFiles : Files) :
    exchange.Digested source (.initial leftFiles rightFiles) where
  sender := hashes_initial exchange source leftFiles
  announced _ member := by cases member
  queued _ member := by cases member
  compared _ member := by cases member
  checked := ⟨nofun, nofun⟩

/-- The active receive can be read again. -/
theorem rehashes
    {label : RecvLabel}
    (runs : exchange.Runs leftFiles rightFiles size link)
    (works : (LinkLabel.rightRecv label).hashes = true) :
    rehashWorks link.right (.recv label) = true := by
  cases label with
  | closeFile flushFails rehashFails =>
      have succeeds : rehashFails = false := by
        simpa [LinkLabel.hashes] using works
      cases phase : link.right.receiver with
      | receiving current =>
          obtain unaccepted | accepted := runs.phase
          · rw [unaccepted.idle] at phase
            cases phase
          · obtain ⟨content, present, -⟩ :=
              (accepted.sole.receiving current phase).onDisk
            have readable :
                link.right.files.content? current.targetWritePath =
                  some content :=
              FileStore.content?_eq_some.mpr present
            simp [rehashWorks, phase, succeeds, readable]
      | _ => simp [rehashWorks, phase]
  | _ => rfl

/-- A step of the sending loop that announces no digest. -/
theorem leftLoop
    {peerLabel : PeerLabel} {left : Peer} {answer : Option Answer}
    {faults : Faults} {outbox : List Letter}
    (digested : exchange.Digested source link)
    (once : link.left.SendsOnce exchange)
    (isLoop : peerLabel.isLoop = true)
    (silent :
      (link.left.finalSide.after peerLabel).finals = link.left.finals)
    (taken : peerStep link.left peerLabel = some left)
    (effect : OfferingEffect link.left answer faults left.offering) :
    exchange.Digested source ⟨left, link.right.withOutbox outbox⟩ where
  sender := digested.sender.loop once isLoop taken effect
  announced := by
    obtain ⟨side, -, -⟩ := loopStep_finalSide isLoop taken
    have finals : left.finals = link.left.finals :=
      (congrArg FinalSide.finals side).trans silent
    change ∀ hash, .fileSent hash ∈ left.finals → _
    rw [finals]
    exact digested.announced
  queued := digested.queued
  compared := digested.compared
  checked := digested.checked

/-- A step of the receiving loop, which may take a digest from the outbox. -/
theorem rightLoop
    {peerLabel : PeerLabel} {right : Peer} {outbox : List Letter}
    (digested : exchange.Digested source link)
    (isLoop : peerLabel.isLoop = true)
    (finals :
      ∀ hash, .fileSent hash ∈ (link.left.withOutbox outbox).finals →
        hash = sha256Hex source)
    (hashes :
      ∀ hash ∈ (link.right.finalSide.after peerLabel).hashQueue,
        hash = sha256Hex source)
    (taken : peerStep link.right peerLabel = some right) :
    exchange.Digested source ⟨link.left.withOutbox outbox, right⟩ where
  sender :=
    ⟨digested.sender.queued, digested.sender.opening,
      digested.sender.streaming⟩
  announced := finals
  queued := by
    obtain ⟨side, -, -⟩ := loopStep_finalSide isLoop taken
    rw [← side] at hashes
    exact hashes
  compared := by
    have receipts : right.receipts = link.right.receipts :=
      congrArg TaskSide.receipts (loopStep_taskSide isLoop taken)
    change ∀ receipt ∈ right.receipts, _
    rw [receipts]
    exact digested.compared
  checked := by
    have isRehash : rehashWorks link.right peerLabel = true := by
      cases peerLabel with
      | recv label => cases isLoop
      | _ => rfl
    exact peerStep_checked digested.checked isRehash taken

/-- The receive task compares with the digests of its queue. -/
theorem rightTask
    {label : RecvLabel} {left right : Peer}
    (digested : exchange.Digested source link)
    (runs : exchange.Runs leftFiles rightFiles size link)
    (isLeft : left.Hashes exchange source)
    (finals : left.finals = link.left.finals)
    (works : (LinkLabel.rightRecv label).hashes = true)
    (taken : link.right.recvStep label = some right) :
    exchange.Digested source ⟨left, right⟩ where
  sender := isLeft
  announced := by
    change ∀ hash, .fileSent hash ∈ left.finals → _
    rw [finals]
    exact digested.announced
  queued hash member :=
    digested.queued hash (recvStep_hashQueue taken hash member)
  compared receipt member := by
    obtain earlier | now := recvStep_compared taken receipt member
    · exact digested.compared receipt earlier
    · exact digested.queued _ now
  checked := peerStep_checked digested.checked (rehashes runs works) taken

/-- The digest at the front of the outbox is queued. -/
theorem control
    {letter : Letter} {rest : List Letter} {right : Peer} {faults : Faults}
    (digested : exchange.Digested source link)
    (arrived : link.left.outbox = letter :: rest)
    (taken : peerStep link.right (.control letter faults) = some right) :
    exchange.Digested source ⟨link.left.withOutbox rest, right⟩ := by
  have announced := digested.announced
  rw [Peer.finals, arrived, List.map_cons] at announced
  refine digested.rightLoop rfl ?_ ?_ taken
  · intro hash member
    apply announced
    rw [List.filter_cons]
    split
    · exact List.mem_cons_of_mem _ member
    · exact member
  · intro hash member
    obtain before | new := List.mem_append.mp member
    · exact digested.queued hash before
    · apply announced
      have isHash : letter.message = .fileSent hash := by
        cases isMessage : letter.message with
        | fileSent other =>
            rw [isMessage] at new
            rw [List.mem_singleton.mp new]
        | _ =>
            rw [isMessage] at new
            cases new
      have isFinal : ControlMessage.isFinal (.fileSent hash) = true := rfl
      rw [isHash, List.filter_cons, if_pos isFinal]
      exact List.mem_cons_self

theorem step
    {label : LinkLabel} (digested : exchange.Digested source link)
    (runs : exchange.Runs leftFiles rightFiles size link)
    (isSource :
      leftFiles (components exchange.offer.path) = some (.file source))
    (checksum : exchange.offer.checksum = true)
    (works : label.hashes = true)
    (stepped : linkStep link label = some next) :
    exchange.Digested source next := by
  have underway := runs.underway
  have sends := underway.bound.roles.sends
  cases linkStep_effect stepped with
  | leftCommand command faults left isSend taken =>
      have effect := commandStep_offering isSend taken
      refine
        @leftLoop _ _ link _ _ _ _ link.right.outbox digested underway.once
          rfl ?_ taken effect
      rw [after_sends _ faults isSend]
      rfl
  | leftControl faults letter rest left arrived taken =>
      have effect := controlStep_offering sends taken
      exact digested.leftLoop underway.once rfl rfl taken effect
  | leftEnds reason left taken =>
      have effect := endStep_offering .none taken
      exact
        @leftLoop _ _ link _ _ _ _ link.right.outbox digested underway.once
          rfl rfl taken effect
  | leftSend label left taken =>
      have isLeft :
          link.left.files (components exchange.offer.path) =
            some (.file source) := by
        rw [underway.sources]
        exact isSource
      refine
        ⟨digested.sender.send isLeft taken, ?_, digested.queued,
          digested.compared, digested.checked⟩
      intro hash member
      obtain earlier | isHash :=
        sendStep_announces digested.sender isLeft checksum works taken hash
          member
      · exact digested.announced hash earlier
      · exact isHash
  | rightCommand command faults right receives taken =>
      refine
        @rightLoop _ _ link _ _ link.left.outbox digested rfl
          digested.announced ?_ taken
      cases command <;> exact digested.queued
  | rightControl faults letter rest right arrived taken =>
      exact digested.control arrived taken
  | rightEnds reason right taken =>
      exact
        @rightLoop _ _ link (.loopEnds reason) _ link.left.outbox digested
          rfl digested.announced digested.queued taken
  | received chunk rest right isFront taken =>
      exact
        digested.rightTask runs
          ⟨digested.sender.queued, digested.sender.opening,
            digested.sender.streaming⟩ rfl works taken
  | rightRecv label right notReceive taken =>
      exact digested.rightTask runs digested.sender rfl works taken

end Exchange.Digested

end Quiczilla
