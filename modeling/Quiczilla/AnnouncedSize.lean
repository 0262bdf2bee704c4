import Quiczilla.Peer
import Quiczilla.ReceiveSide
import Quiczilla.SendSide

/-!
# The announced size of a file

`METADATA` takes the size of the source from one `std::fs::metadata` call; the
disk reader later reads until the end of the file.  Between its steps anyone
may change the files, so the two need not agree.

The history variable has one record for each iteration of the send task: the
bytes that it put on the file stream, and the messages with which it ended.
-/

namespace Quiczilla

open Foundation

/-! ## A peer whose files change -/

inductive SourceLabel where
  | peer (label : PeerLabel)
  | change (files : Files)

/-- A step of the peer, or someone else changes the files. -/
def sourceStep (peer : Peer) : SourceLabel → Option Peer
  | .peer label => peerStep peer label
  | .change files => some { peer with files := files }

/-- The offer and the size that a `METADATA` message announces. -/
def Letter.size? (letter : Letter) : Option (Nat × Nat) :=
  match letter.message with
  | .metadata _ size _ _ => some (letter.offer, size)
  | _ => none

/-- What this peer announced. -/
def Peer.sizes (peer : Peer) : List (Nat × Nat) :=
  peer.outbox.filterMap Letter.size?

/-- One iteration of the send task. -/
structure SendRecord where
  job : SendJob
  put : List UInt8
  told : Option (List ControlMessage)
  deriving DecidableEq, Repr

/-- What a step adds to the record of the iteration that takes it. -/
def SendRecord.add
    (record : SendRecord) (peer next : Peer) : SendRecord where
  job := record.job
  put := record.put ++ next.fileOut.drop peer.fileOut.length
  told :=
    if next.sender = .idle then
      some ((next.outbox.drop peer.outbox.length).map Letter.message)
    else none

/-- The newest record comes first. -/
def noteSend (peer : Peer) (_ : SourceLabel) (next : Peer)
    (records : List SendRecord) : List SendRecord :=
  match peer.sender, next.sender, records with
  | .idle, .opening job, _ => ⟨job, [], none⟩ :: records
  | .idle, _, _ => records
  | _, _, [] => []
  | _, _, record :: rest => record.add peer next :: rest

/-- The peer and its sends. -/
def recordedStep :
    Peer × List SendRecord → SourceLabel →
      Option (Peer × List SendRecord) :=
  withHistory sourceStep noteSend

/-! ## The property -/

/-- The iteration puts no more on the stream than was announced behind the
offset, does not end without a message, and says `FILE_SENT` behind exactly as
much as was announced. -/
structure SendRecord.Honours (record : SendRecord) (size : Nat) :
    Prop where
  bounded : record.put.length ≤ size - record.job.resumeOffset
  exact :
    ∀ messages, record.told = some messages →
      ∀ hash, .fileSent hash ∈ messages →
        record.put.length = size - record.job.resumeOffset
  signalled : record.told ≠ some []

/-- Every send honours the size of its offer. -/
def HonoursSizes (recorded : Peer × List SendRecord) : Prop :=
  ∀ record ∈ recorded.2, ∀ size,
    (record.job.offer, size) ∈ recorded.1.sizes → record.Honours size

/-- The source is what was announced: it can be opened and read, no read goes
past the announced size and none ends before it; and the peer is not stopped
while it sends. -/
def SourceHolds
    (recorded : Peer × List SendRecord) (label : SourceLabel) : Prop :=
  match recorded.1.sender, label with
  | .opening _, .peer (.send (.openSource outcome)) =>
      outcome ≠ .failed ∧ outcome ≠ .seekFailed
  | .streaming stream, .peer (.send (.readChunk length)) =>
      ∀ entry ∈ recorded.1.sizes, entry.1 = stream.job.offer →
        stream.position + length ≤ entry.2
  | .streaming stream, .peer (.send .readEnd) =>
      ∀ entry ∈ recorded.1.sizes, entry.1 = stream.job.offer →
        entry.2 ≤ stream.position
  | .streaming _, .peer (.send .readFails) => False
  | .streaming _, .peer (.send .writeChunk) =>
      recorded.1.cancelled = false
  | .streaming _, .peer (.send (.writeStops _)) => False
  | _, _ => True

instance (recorded : Peer × List SendRecord) (label : SourceLabel) :
    Decidable (SourceHolds recorded label) := by
  delta SourceHolds
  split <;> infer_instance

/-! ## Steps of the loop and of the receive task -/

/-- The part of a peer that its sends depend on. -/
structure SendingSide where
  announced : List String
  pending : Option PendingSend
  sendQueue : List SendJob
  sender : SendPhase
  fileOut : List UInt8
  sizes : List (Nat × Nat)

def Peer.sendingSide (peer : Peer) : SendingSide where
  announced := peer.coordinator.announced
  pending := peer.coordinator.pendingSendPath
  sendQueue := peer.sendQueue
  sender := peer.sender
  fileOut := peer.fileOut
  sizes := peer.sizes

/-- Everything that a step beside the send task can do to it. -/
inductive SendingEffect (side : SendingSide) : SendingSide → Prop
  | quiet : SendingEffect side side
  | announced (pending : PendingSend) (size : Nat) :
      SendingEffect side
        { side with
          announced := side.announced ++ [pending.path]
          pending := some pending
          sizes := side.sizes ++ [(side.announced.length, size)] }
  | queued (job : SendJob) :
      side.pending ≠ none →
      job.offer = side.announced.length - 1 →
      SendingEffect side
        { side with
          pending := none
          sendQueue := side.sendQueue ++ [job] }
  | kept (pending : PendingSend) :
      side.pending ≠ none →
      SendingEffect side { side with pending := some pending }

theorem send_sizes
    (peer : Peer) (message : ControlMessage) (offer : Nat) :
    (peer.send message offer).sizes =
      peer.sizes ++ (Letter.size? ⟨message, offer⟩).toList := by
  rw [Peer.sizes, Peer.send, List.filterMap_append]
  cases size : Letter.size? ⟨message, offer⟩ <;>
    simp [Peer.sizes, size]

/-- A message that announces nothing. -/
theorem send_sendingSide
    (peer : Peer) {message : ControlMessage} {offer : Nat}
    (noSize : Letter.size? ⟨message, offer⟩ = none) :
    (peer.send message offer).sendingSide = peer.sendingSide := by
  have sizes := send_sizes peer message offer
  rw [noSize, Option.toList_none, List.append_nil] at sizes
  rw [Peer.sendingSide, sizes]
  rfl

theorem acceptFresh_sendingSide (peer : Peer) (job : RecvJob) :
    (peer.acceptFresh job).sendingSide = peer.sendingSide :=
  send_sendingSide (peer.triggerRecv job) rfl

theorem offerResume_sendingSide
    (peer : Peer) (job : RecvJob) (path : UnixPath) (faults : Faults) :
    (peer.offerResume job path faults).sendingSide = peer.sendingSide :=
  send_sendingSide (peer.awaitResume job) rfl

theorem truncateTo_sendingSide
    (peer : Peer) (path : UnixPath) (length : Nat) (faults : Faults) :
    (peer.truncateTo path length faults).sendingSide =
      peer.sendingSide := by
  unfold Peer.truncateTo
  split
  · rfl
  · split <;> rfl

theorem handleAccept_sendingSide
    (peer : Peer) (accept : PendingAccept) (name : String) (size : Nat)
    (faults : Faults) :
    (peer.handleAccept accept name size faults).sendingSide =
      peer.sendingSide := by
  simp only [Peer.handleAccept]
  split
  · split
    · split
      · split
        · rw [offerResume_sendingSide, truncateTo_sendingSide]
          rfl
        · rw [acceptFresh_sendingSide]
          rfl
      · split
        · rw [offerResume_sendingSide]
          rfl
        · rw [acceptFresh_sendingSide]
          rfl
    · rw [acceptFresh_sendingSide]
      rfl
  · rw [acceptFresh_sendingSide]
    rfl

theorem handleRestart_sendingSide (peer : Peer) (faults : Faults) :
    (peer.handleRestart faults).sendingSide = peer.sendingSide := by
  unfold Peer.handleRestart
  split
  · rw [acceptFresh_sendingSide, Peer.recreatePart]
    split
    · split
      · rfl
      · split <;> rfl
    · rfl
  · rfl

theorem startPending_sending
    {peer : Peer} {pending : PendingSend}
    (isPending : peer.coordinator.pendingSendPath = some pending)
    (offset : Nat) :
    SendingEffect peer.sendingSide
      (peer.startPending pending offset).sendingSide := by
  refine SendingEffect.queued _ ?_ rfl
  rw [Peer.sendingSide, isPending]
  exact Option.some_ne_none pending

theorem handleResumeReady_sending
    (peer : Peer) (offset : Nat) (prefixHash : Option String)
    (faults : Faults) :
    SendingEffect peer.sendingSide
      (peer.handleResumeReady offset prefixHash faults).sendingSide := by
  unfold Peer.handleResumeReady
  split
  · rename_i pending isPending
    have waiting : peer.sendingSide.pending ≠ none := by
      rw [Peer.sendingSide, isPending]
      exact Option.some_ne_none pending
    split
    · split
      · have sent :
            (peer.send .resumeOk peer.lastOffer).sendingSide =
              peer.sendingSide :=
          send_sendingSide peer rfl
        have started :=
          @startPending_sending (peer.send .resumeOk peer.lastOffer)
            pending isPending offset
        rw [sent] at started
        exact started
      · rw [send_sendingSide _ rfl]
        exact SendingEffect.kept { pending with resume := false } waiting
    · exact startPending_sending isPending 0
  · exact SendingEffect.quiet

theorem handleControl_sending
    (peer : Peer) (letter : Letter) (faults : Faults) :
    SendingEffect peer.sendingSide
      (peer.handleControl letter faults).sendingSide := by
  obtain ⟨message, offer⟩ := letter
  cases message with
  | metadata name size resume checksum =>
      change
        SendingEffect peer.sendingSide
          (peer.handleMetadata name size resume checksum offer
            faults).sendingSide
      have same :
          (peer.handleMetadata name size resume checksum offer
              faults).sendingSide =
            peer.sendingSide := by
        unfold Peer.handleMetadata
        split
        · exact handleAccept_sendingSide _ _ _ _ _
        · rfl
      rw [same]
      exact SendingEffect.quiet
  | ready =>
      change SendingEffect peer.sendingSide peer.handleReady.sendingSide
      unfold Peer.handleReady
      split
      · rename_i pending isPending
        exact startPending_sending isPending 0
      · exact SendingEffect.quiet
  | resumeReady offset prefixHash =>
      exact handleResumeReady_sending peer offset prefixHash faults
  | resumeOk =>
      change SendingEffect peer.sendingSide peer.handleResumeOk.sendingSide
      unfold Peer.handleResumeOk
      split <;> exact SendingEffect.quiet
  | restartFromZero =>
      change
        SendingEffect peer.sendingSide
          (peer.handleRestart faults).sendingSide
      rw [handleRestart_sendingSide]
      exact SendingEffect.quiet
  | _ => exact SendingEffect.quiet

theorem handleCommand_sending
    (peer : Peer) (command : PeerCommand) (faults : Faults) :
    SendingEffect peer.sendingSide
      (peer.handleCommand command faults).sendingSide := by
  have quietly {next : Peer} (same : next.sendingSide = peer.sendingSide) :
      SendingEffect peer.sendingSide next.sendingSide := by
    rw [same]
    exact SendingEffect.quiet
  cases command with
  | sendFile path checksum resume =>
      simp only [Peer.handleCommand, Peer.handleSendFile]
      split
      · exact SendingEffect.quiet
      · split
        · rename_i size _
          have isNext :
              (peer.announce ⟨path, checksum, resume⟩ size).sendingSide =
                { peer.sendingSide with
                  announced := peer.sendingSide.announced ++ [path]
                  pending := some ⟨path, checksum, resume⟩
                  sizes :=
                    peer.sendingSide.sizes ++
                      [(peer.sendingSide.announced.length, size)] } := by
            rw [Peer.sendingSide, Peer.announce, send_sizes]
            rfl
          rw [isNext]
          exact SendingEffect.announced ⟨path, checksum, resume⟩ size
        · exact SendingEffect.quiet
  | acceptFile saveDir checksum resume =>
      refine quietly ?_
      change
        (peer.handleAcceptFile ⟨saveDir, checksum, resume⟩
            faults).sendingSide =
          peer.sendingSide
      unfold Peer.handleAcceptFile
      split
      · exact handleAccept_sendingSide _ _ _ _ _
      · rfl
  | rejectFile => exact quietly (send_sendingSide peer.clearOffer rfl)
  | pause =>
      exact quietly (send_sendingSide (peer.setPaused true) rfl)
  | resume =>
      exact quietly (send_sendingSide (peer.setPaused false) rfl)
  | disconnect => exact SendingEffect.quiet

theorem taskEffect_sendingSide
    {label : RecvLabel} {peer next : Peer}
    (effect : TaskEffect label peer next) :
    next.sendingSide = peer.sendingSide := by
  have failed (before : Peer) (status : FileTransferStatus)
      (same : before.sendingSide = peer.sendingSide) :
      (before.failReceive status).sendingSide = peer.sendingSide :=
    (@send_sendingSide { before with receiver := .stopped }
      .receivedFileFailed 0 rfl).trans same
  have completed (before : Peer) (verifying : Verifying) (hash : String)
      (same : before.sendingSide = peer.sendingSide) :
      (before.completeReceive verifying hash).sendingSide =
        peer.sendingSide :=
    (@send_sendingSide
      { before with
        receiver := .idle
        receipts := before.receipts ++ [⟨verifying, hash⟩] }
      .receivedFileOk verifying.job.offer rfl).trans same
  cases effect with
  | refused job files => exact failed _ _ rfl
  | seekFailed job files opened => exact failed _ _ rfl
  | gaveUp receiving => exact failed _ _ rfl
  | rejected verifying rest => exact failed _ _ rfl
  | completed verifying hash rest => exact completed _ _ _ rfl
  | committed verifying hash rest renamed => exact completed _ _ _ rfl
  | _ => rfl

/-- The send task takes the step, or it is left alone. -/
theorem sourceStep_sending
    {peer next : Peer} {label : SourceLabel}
    (stepped : sourceStep peer label = some next) :
    SendingEffect peer.sendingSide next.sendingSide ∨
      ∃ sendLabel, label = .peer (.send sendLabel) ∧
        peer.sendStep sendLabel = some next := by
  cases label with
  | change files =>
      cases stepped
      exact .inl SendingEffect.quiet
  | peer peerLabel =>
      cases peerLabel with
      | control letter faults =>
          simp only [sourceStep, peerStep] at stepped
          split at stepped <;> cases stepped
          exact .inl (handleControl_sending peer letter faults)
      | command command faults =>
          simp only [sourceStep, peerStep] at stepped
          split at stepped <;> cases stepped
          exact .inl (handleCommand_sending peer command faults)
      | loopEnds reason =>
          simp only [sourceStep, peerStep] at stepped
          split at stepped <;> cases stepped
          have same : (peer.endLoop reason).sendingSide = peer.sendingSide := by
            cases reason <;> rfl
          rw [same]
          exact .inl SendingEffect.quiet
      | send sendLabel => exact .inr ⟨sendLabel, rfl, stepped⟩
      | recv recvLabel =>
          have same := taskEffect_sendingSide (recvStep_effect stepped)
          rw [same]
          exact .inl SendingEffect.quiet

/-! ## The invariant -/

/-- The record of an iteration that has ended, or of one that this side does
not know about. -/
def SendingSide.Ended (side : SendingSide) (record : SendRecord) : Prop :=
  record.job.offer < side.announced.length ∧
    ∀ size, (record.job.offer, size) ∈ side.sizes → record.Honours size

/-- What the network writer has not put on the stream yet. -/
def SendStream.waiting (stream : SendStream) : Nat :=
  (stream.taken.getD []).length + stream.chunks.flatten.length

/-- The bytes that were put, those that wait and the position of the reader
agree, and the reader is within the announced size. -/
structure SendingSide.Streaming
    (side : SendingSide) (stream : SendStream) (put : List UInt8) :
    Prop where
  counted :
    stream.job.resumeOffset + put.length + stream.waiting =
      stream.position
  within :
    ∀ size, (stream.job.offer, size) ∈ side.sizes →
      stream.position ≤ max stream.job.resumeOffset size
  finished :
    stream.reader ≠ .reading →
      stream.reader ≠ .failed ∧
        ∀ size, (stream.job.offer, size) ∈ side.sizes →
          size ≤ stream.position

/-- The first record is that of the current iteration. -/
def SendingSide.Current
    (side : SendingSide) (records : List SendRecord) :
    SendPhase → Prop
  | .idle => ∀ record ∈ records, side.Ended record
  | .opening job =>
      ∃ rest, records = ⟨job, [], none⟩ :: rest ∧
        job.offer < side.announced.length ∧
          ∀ record ∈ rest, side.Ended record
  | .streaming stream =>
      ∃ put rest, records = ⟨stream.job, put, none⟩ :: rest ∧
        stream.job.offer < side.announced.length ∧
          side.Streaming stream put ∧ ∀ record ∈ rest, side.Ended record

structure SendingSide.Recorded
    (side : SendingSide) (records : List SendRecord) : Prop where
  fresh : ∀ entry ∈ side.sizes, entry.1 < side.announced.length
  pendingOffer : side.pending ≠ none → 0 < side.announced.length
  queued : ∀ job ∈ side.sendQueue, job.offer < side.announced.length
  current : side.Current records side.sender

/-- An announcement does not concern the earlier offers. -/
theorem mem_sizes_of_announced
    {side : SendingSide} {offer size announcedSize : Nat}
    (before : offer < side.announced.length)
    (member :
      (offer, size) ∈
        side.sizes ++ [(side.announced.length, announcedSize)]) :
    (offer, size) ∈ side.sizes := by
  rcases List.mem_append.mp member with earlier | isNew
  · exact earlier
  · have same := (Prod.mk.inj (List.mem_singleton.mp isNew)).1
    omega

theorem Ended_later
    {side later : SendingSide} {record : SendRecord}
    (ended : side.Ended record)
    (longer : side.announced.length ≤ later.announced.length)
    (sizes :
      ∀ offer size, offer < side.announced.length →
        (offer, size) ∈ later.sizes → (offer, size) ∈ side.sizes) :
    later.Ended record :=
  ⟨ended.1.trans_le longer,
    fun size member => ended.2 size (sizes _ size ended.1 member)⟩

theorem Current_later
    {side later : SendingSide} {records : List SendRecord}
    {phase : SendPhase} (current : side.Current records phase)
    (longer : side.announced.length ≤ later.announced.length)
    (sizes :
      ∀ offer size, offer < side.announced.length →
        (offer, size) ∈ later.sizes → (offer, size) ∈ side.sizes) :
    later.Current records phase := by
  cases phase with
  | idle =>
      exact fun record member =>
        Ended_later (current record member) longer sizes
  | opening job =>
      obtain ⟨rest, isRecords, known, ended⟩ := current
      exact
        ⟨rest, isRecords, known.trans_le longer,
          fun record member =>
            Ended_later (ended record member) longer sizes⟩
  | streaming stream =>
      obtain ⟨put, rest, isRecords, known, streaming, ended⟩ := current
      exact
        ⟨put, rest, isRecords, known.trans_le longer,
          { counted := streaming.counted
            within := fun size member =>
              streaming.within size (sizes _ size known member)
            finished := fun notReading =>
              ⟨(streaming.finished notReading).1,
                fun size member =>
                  (streaming.finished notReading).2 size
                    (sizes _ size known member)⟩ },
          fun record member =>
            Ended_later (ended record member) longer sizes⟩

/-- A step beside the send task keeps the invariant. -/
theorem Recorded_beside
    {side next : SendingSide} {records : List SendRecord}
    (recorded : side.Recorded records) (effect : SendingEffect side next) :
    next.Recorded records := by
  cases effect with
  | quiet => exact recorded
  | announced pending size =>
      have longer :
          side.announced.length ≤
            (side.announced ++ [pending.path]).length := by
        simp
      exact
        { fresh := by
            intro entry member
            rcases List.mem_append.mp member with earlier | isNew
            · exact (recorded.fresh entry earlier).trans_le longer
            · rw [List.mem_singleton.mp isNew]
              simp
          pendingOffer := fun _ => by simp
          queued := fun job member =>
            (recorded.queued job member).trans_le longer
          current :=
            Current_later recorded.current longer
              fun _ _ before member =>
                mem_sizes_of_announced before member }
  | queued job waiting isLast =>
      have some := recorded.pendingOffer waiting
      exact
        { fresh := recorded.fresh
          pendingOffer := fun isPending => absurd rfl isPending
          queued := by
            intro other member
            rcases List.mem_append.mp member with earlier | isNew
            · exact recorded.queued other earlier
            · rw [List.mem_singleton.mp isNew, isLast]
              exact Nat.sub_lt some Nat.one_pos
          current :=
            Current_later recorded.current (le_refl _)
              fun _ _ _ member => member }
  | kept pending waiting =>
      exact
        { fresh := recorded.fresh
          pendingOffer := fun _ => recorded.pendingOffer waiting
          queued := recorded.queued
          current :=
            Current_later recorded.current (le_refl _)
              fun _ _ _ member => member }

/-! ## The send task -/

theorem noteSend_running
    {peer next : Peer} {record : SendRecord} {rest : List SendRecord}
    (wasBusy : peer.sender ≠ .idle) (label : SourceLabel) :
    noteSend peer label next (record :: rest) =
      record.add peer next :: rest := by
  cases isPhase : peer.sender with
  | idle => exact absurd isPhase wasBusy
  | opening job => rw [noteSend.eq_def, isPhase]
  | streaming stream => rw [noteSend.eq_def, isPhase]

/-- While the iteration goes on, only what it puts on the stream is added. -/
theorem add_running
    {peer next : Peer} {job : SendJob} {put bytes : List UInt8}
    (isBusy : next.sender ≠ .idle)
    (isOut : next.fileOut = peer.fileOut ++ bytes) :
    SendRecord.add ⟨job, put, none⟩ peer next = ⟨job, put ++ bytes, none⟩ := by
  rw [SendRecord.add, if_neg isBusy, isOut, List.drop_left]

/-- A step beside the send task adds nothing to the records. -/
theorem noteSend_beside
    {peer next : Peer} {records : List SendRecord}
    (current : peer.sendingSide.Current records peer.sender)
    (isSender : next.sender = peer.sender)
    (isOut : next.fileOut = peer.fileOut) (label : SourceLabel) :
    noteSend peer label next records = records := by
  have unchanged : next.fileOut = peer.fileOut ++ [] :=
    isOut.trans (List.append_nil _).symm
  cases isPhase : peer.sender with
  | idle =>
      rw [isPhase] at isSender
      rw [noteSend.eq_def, isPhase, isSender]
  | opening job =>
      rw [isPhase] at current isSender
      obtain ⟨rest, rfl, _⟩ := current
      rw [noteSend_running (by rw [isPhase]; simp),
        add_running (by rw [isSender]; simp) unchanged, List.append_nil]
  | streaming stream =>
      rw [isPhase] at current isSender
      obtain ⟨put, rest, rfl, _⟩ := current
      rw [noteSend_running (by rw [isPhase]; simp),
        add_running (by rw [isSender]; simp) unchanged, List.append_nil]

/-- The parts of the invariant that the send task does not touch. -/
theorem Recorded_task
    {side next : SendingSide} {records later : List SendRecord}
    (recorded : side.Recorded records)
    (isAnnounced : next.announced = side.announced)
    (isPending : next.pending = side.pending)
    (isQueue : next.sendQueue ⊆ side.sendQueue)
    (isSizes : next.sizes = side.sizes)
    (current : side.Current later next.sender) :
    next.Recorded later where
  fresh := by
    rw [isSizes, isAnnounced]
    exact recorded.fresh
  pendingOffer := by
    rw [isPending, isAnnounced]
    exact recorded.pendingOffer
  queued := by
    intro job member
    rw [isAnnounced]
    exact recorded.queued job (isQueue member)
  current := by
    refine Current_later current (le_of_eq (by rw [isAnnounced])) ?_
    intro offer size _ member
    rw [isSizes] at member
    exact member

/-- A step of the iteration that stays in it. -/
theorem Recorded_stream
    {peer next : Peer} {records : List SendRecord}
    {stream later : SendStream} {bytes : List UInt8}
    (recorded : peer.sendingSide.Recorded records)
    (isPhase : peer.sender = .streaming stream)
    (isNext : next.sendingSide =
      { peer.sendingSide with
        sender := .streaming later
        fileOut := peer.fileOut ++ bytes })
    (isJob : later.job = stream.job)
    (kept :
      ∀ put, peer.sendingSide.Streaming stream put →
        peer.sendingSide.Streaming later (put ++ bytes))
    (label : SourceLabel) :
    next.sendingSide.Recorded (noteSend peer label next records) := by
  have current := recorded.current
  change peer.sendingSide.Current records peer.sender at current
  rw [isPhase] at current
  obtain ⟨put, rest, rfl, known, streaming, ended⟩ := current
  have isSender : next.sender = .streaming later :=
    congrArg SendingSide.sender isNext
  have isOut : next.fileOut = peer.fileOut ++ bytes :=
    congrArg SendingSide.fileOut isNext
  rw [noteSend_running (by rw [isPhase]; simp),
    add_running (by rw [isSender]; simp) isOut, isNext]
  refine Recorded_task recorded rfl rfl (List.Subset.refl _) rfl ?_
  refine ⟨put ++ bytes, rest, ?_, ?_, kept put streaming, ended⟩
  · rw [isJob]
  · rw [isJob]
    exact known

/-- A step of the iteration that puts nothing on the stream. -/
theorem Recorded_reader
    {peer next : Peer} {records : List SendRecord}
    {stream later : SendStream}
    (recorded : peer.sendingSide.Recorded records)
    (isPhase : peer.sender = .streaming stream)
    (isNext : next.sendingSide =
      { peer.sendingSide with sender := .streaming later })
    (isJob : later.job = stream.job)
    (kept :
      ∀ put, peer.sendingSide.Streaming stream put →
        peer.sendingSide.Streaming later put)
    (label : SourceLabel) :
    next.sendingSide.Recorded (noteSend peer label next records) := by
  have nothingPut :
      next.sendingSide =
        { peer.sendingSide with
          sender := .streaming later
          fileOut := peer.fileOut ++ [] } := by
    rw [isNext, List.append_nil]
    rfl
  refine Recorded_stream recorded isPhase nothingPut isJob ?_ label
  intro put streaming
  rw [List.append_nil]
  exact kept put streaming

theorem Recorded_start
    {peer next : Peer} {records : List SendRecord} {job : SendJob}
    {rest : List SendJob}
    (recorded : peer.sendingSide.Recorded records)
    (isIdle : peer.sender = .idle) (isQueue : peer.sendQueue = job :: rest)
    (isNext : next.sendingSide =
      { peer.sendingSide with sendQueue := rest, sender := .opening job })
    (label : SourceLabel) :
    next.sendingSide.Recorded (noteSend peer label next records) := by
  have ended := recorded.current
  change peer.sendingSide.Current records peer.sender at ended
  rw [isIdle] at ended
  have isSender : next.sender = .opening job :=
    congrArg SendingSide.sender isNext
  have noted :
      noteSend peer label next records = ⟨job, [], none⟩ :: records := by
    rw [noteSend.eq_def, isIdle, isSender]
  have known :=
    recorded.queued job (by
      change job ∈ peer.sendQueue
      rw [isQueue]
      exact List.mem_cons_self)
  rw [noted, isNext]
  refine
    Recorded_task recorded rfl rfl ?_ rfl ⟨records, rfl, known, ended⟩
  change rest ⊆ peer.sendQueue
  rw [isQueue]
  exact List.subset_cons_self job rest

theorem Recorded_open
    {peer next : Peer} {records : List SendRecord} {job : SendJob}
    {totalBytes : Nat} (recorded : peer.sendingSide.Recorded records)
    (isPhase : peer.sender = .opening job)
    (isNext : next.sendingSide =
      { peer.sendingSide with sender := .streaming (job.begin totalBytes) })
    (label : SourceLabel) :
    next.sendingSide.Recorded (noteSend peer label next records) := by
  have current := recorded.current
  change peer.sendingSide.Current records peer.sender at current
  rw [isPhase] at current
  obtain ⟨rest, rfl, known, ended⟩ := current
  have isSender : next.sender = .streaming (job.begin totalBytes) :=
    congrArg SendingSide.sender isNext
  have isOut : next.fileOut = peer.fileOut ++ [] :=
    (congrArg SendingSide.fileOut isNext).trans (List.append_nil _).symm
  rw [noteSend_running (by rw [isPhase]; simp),
    add_running (by rw [isSender]; simp) isOut, isNext]
  refine Recorded_task recorded rfl rfl (List.Subset.refl _) rfl ?_
  refine ⟨[], rest, rfl, known, ?_, ended⟩
  exact
    { counted := rfl
      within := fun size _ => Nat.le_max_left _ size
      finished := fun notReading => absurd rfl notReading }

/-- The reader has seen the end of the file and everything is written. -/
theorem Recorded_finish
    {peer next : Peer} {records : List SendRecord} {stream : SendStream}
    {hash : String} (recorded : peer.sendingSide.Recorded records)
    (isPhase : peer.sender = .streaming stream)
    (drained : stream.taken = none ∧ stream.chunks = [])
    (notReading : stream.reader ≠ .reading)
    (isNext : next.sendingSide = { peer.sendingSide with sender := .idle })
    (isOutbox :
      next.outbox = peer.outbox ++ [⟨.fileSent hash, stream.job.offer⟩])
    (label : SourceLabel) :
    next.sendingSide.Recorded (noteSend peer label next records) := by
  have current := recorded.current
  change peer.sendingSide.Current records peer.sender at current
  rw [isPhase] at current
  obtain ⟨put, rest, rfl, known, streaming, ended⟩ := current
  have isSender : next.sender = .idle := congrArg SendingSide.sender isNext
  have isOut : next.fileOut = peer.fileOut :=
    congrArg SendingSide.fileOut isNext
  have noted :
      SendRecord.add ⟨stream.job, put, none⟩ peer next =
        ⟨stream.job, put, some [.fileSent hash]⟩ := by
    rw [SendRecord.add, if_pos isSender, isOut, isOutbox, List.drop_left,
      List.drop_length, List.append_nil]
    rfl
  rw [noteSend_running (by rw [isPhase]; simp), noted, isNext]
  refine Recorded_task recorded rfl rfl (List.Subset.refl _) rfl ?_
  have nothingWaits : stream.waiting = 0 := by
    rw [SendStream.waiting, drained.1, drained.2]
    rfl
  have counted := streaming.counted
  intro record member
  rcases List.mem_cons.mp member with rfl | earlier
  · refine ⟨known, ?_⟩
    intro size announced
    have within := streaming.within size announced
    have complete := (streaming.finished notReading).2 size announced
    have whole : put.length = size - stream.job.resumeOffset := by
      omega
    exact
      { bounded := le_of_eq whole
        exact := fun _ _ _ _ => whole
        signalled := by simp }
  · exact ended record earlier

theorem finishSending_sizes
    {peer : Peer} {stream : SendStream} (hash : String) :
    Peer.sendingSide
        (Peer.send
          (Peer.emit { peer with sender := .idle }
            (.transferProgress stream.bytesTransferred stream.totalBytes
              true))
          (.fileSent hash) stream.job.offer) =
      { peer.sendingSide with sender := .idle } :=
  send_sendingSide _ rfl

theorem Recorded_streaming
    {peer next : Peer} {records : List SendRecord} {stream : SendStream}
    {label : SendLabel} (recorded : peer.sendingSide.Recorded records)
    (isPhase : peer.sender = .streaming stream)
    (holds : SourceHolds (peer, records) (.peer (.send label)))
    (stepped : peer.sendStep label = some next) :
    next.sendingSide.Recorded
      (noteSend peer (.peer (.send label)) next records) := by
  simp only [SourceHolds, isPhase] at holds
  unfold Peer.sendStep at stepped
  rw [isPhase] at stepped
  cases label with
  | start => cases stepped
  | openSource outcome => cases stepped
  | readChunk length =>
      simp only [Peer.readChunk] at stepped
      split at stepped <;> cases stepped
      rename_i readable
      obtain ⟨reading, _, _, full, _⟩ := readable
      refine Recorded_reader recorded isPhase rfl (by rfl) ?_ _
      intro put streaming
      have counted := streaming.counted
      rw [SendStream.waiting] at counted
      exact
        { counted := by
            simp only [SendStream.waiting, List.flatten_append,
              List.length_append, List.flatten_singleton, full]
            omega
          within := fun size announced =>
            le_trans (holds _ announced rfl) (Nat.le_max_right _ _)
          finished := fun notReading => absurd reading notReading }
  | readEnd =>
      simp only [Peer.readEnd] at stepped
      split at stepped
      · split at stepped <;> cases stepped
        refine Recorded_reader recorded isPhase rfl (by rfl) ?_ _
        intro put streaming
        exact
          { counted := streaming.counted
            within := streaming.within
            finished := fun _ =>
              ⟨by simp, fun _ announced => holds _ announced rfl⟩ }
      · cases stepped
  | readFails => exact holds.elim
  | takeChunk =>
      simp only at stepped
      split at stepped <;> cases stepped
      rename_i chunk rest free isChunks
      refine Recorded_reader recorded isPhase rfl (by rfl) ?_ _
      intro put streaming
      have counted := streaming.counted
      rw [SendStream.waiting, free, isChunks] at counted
      exact
        { counted := by
            simpa [SendStream.waiting] using counted
          within := streaming.within
          finished := streaming.finished }
  | writeChunk =>
      simp only [Peer.writeChunk] at stepped
      split at stepped
      · rename_i chunk isTaken
        split at stepped
        · cases stepped
        · rw [if_neg (by rw [holds]; exact Bool.false_ne_true)] at stepped
          cases stepped
          refine Recorded_stream recorded isPhase rfl (by rfl) ?_ _
          intro put streaming
          have counted := streaming.counted
          rw [SendStream.waiting, isTaken] at counted
          exact
            { counted := by
                simp only [SendStream.waiting, List.length_append,
                  Option.getD_none, List.length_nil]
                rw [Option.getD_some] at counted
                omega
              within := streaming.within
              finished := streaming.finished }
      · cases stepped
  | writeStops length => exact holds.elim
  | report =>
      cases stepped
      have current := recorded.current
      refine Recorded_task recorded rfl rfl (List.Subset.refl _) rfl ?_
      rw [noteSend_beside current]
      · exact current
      · rfl
      · rfl
  | finish rehashFails =>
      simp only [Peer.finishSending] at stepped
      split at stepped
      · rename_i drained
        split at stepped
        · cases stepped
        · rename_i isFailed
          have current := recorded.current
          change peer.sendingSide.Current records peer.sender at current
          rw [isPhase] at current
          obtain ⟨put, rest, _, _, streaming, _⟩ := current
          have ended := streaming.finished (by rw [isFailed]; simp)
          exact absurd isFailed ended.1
        · rename_i inlineHash isFinished
          cases stepped
          exact
            Recorded_finish recorded isPhase drained
              (by rw [isFinished]; simp) (finishSending_sizes _) rfl _
      · cases stepped

/-- Every admitted step keeps the invariant. -/
theorem Recorded_step
    {peer next : Peer} {records : List SendRecord} {label : SourceLabel}
    (recorded : peer.sendingSide.Recorded records)
    (holds : SourceHolds (peer, records) label)
    (stepped : sourceStep peer label = some next) :
    next.sendingSide.Recorded (noteSend peer label next records) := by
  rcases sourceStep_sending stepped with effect | ⟨sendLabel, rfl, ran⟩
  · have same :
        next.sendingSide.sender = peer.sendingSide.sender ∧
          next.sendingSide.fileOut = peer.sendingSide.fileOut := by
      generalize next.sendingSide = side at effect
      cases effect <;> exact ⟨rfl, rfl⟩
    rw [noteSend_beside recorded.current same.1 same.2]
    exact Recorded_beside recorded effect
  · cases isPhase : peer.sender with
    | streaming stream =>
        exact Recorded_streaming recorded isPhase holds ran
    | idle =>
        unfold Peer.sendStep at ran
        rw [isPhase] at ran
        cases sendLabel <;> simp only at ran <;> try cases ran
        split at ran <;> cases ran
        rename_i job rest isQueue
        exact Recorded_start recorded isPhase isQueue rfl _
    | opening job =>
        unfold Peer.sendStep at ran
        rw [isPhase] at ran
        cases sendLabel <;> simp only at ran <;> try cases ran
        rename_i outcome
        simp only [SourceHolds, isPhase] at holds
        unfold Peer.openSource at ran
        split at ran
        · cases ran
          exact Recorded_open recorded isPhase rfl _
        · cases ran
        · exact absurd rfl holds.2
        · exact absurd rfl holds.1

theorem Recorded.honoursSizes
    {recorded : Peer × List SendRecord}
    (sound : recorded.1.sendingSide.Recorded recorded.2) :
    HonoursSizes recorded := by
  intro record member size announced
  have current := sound.current
  change recorded.1.sendingSide.Current recorded.2 recorded.1.sender at current
  cases isPhase : recorded.1.sender with
  | idle =>
      rw [isPhase] at current
      exact (current record member).2 size announced
  | opening job =>
      rw [isPhase] at current
      obtain ⟨rest, isRecords, _, ended⟩ := current
      rw [isRecords] at member
      rcases List.mem_cons.mp member with rfl | earlier
      · exact
          { bounded := Nat.zero_le _
            exact := nofun
            signalled := nofun }
      · exact (ended record earlier).2 size announced
  | streaming stream =>
      rw [isPhase] at current
      obtain ⟨put, rest, isRecords, _, streaming, ended⟩ := current
      rw [isRecords] at member
      rcases List.mem_cons.mp member with rfl | earlier
      · have counted := streaming.counted
        have within := streaming.within size announced
        exact
          { bounded := by
              change put.length ≤ size - stream.job.resumeOffset
              omega
            exact := nofun
            signalled := nofun }
      · exact (ended record earlier).2 size announced

/-- As long as the source is what was announced, every send puts exactly the
announced bytes behind its offset on the stream and then says so. -/
theorem send_honours_announced_size
    (files : Files) (labels : List SourceLabel)
    (recorded : Peer × List SendRecord)
    (run :
      Run recordedStep SourceHolds (.initial files, []) labels recorded) :
    HonoursSizes recorded := by
  have sound :=
    run.preserves
      (fun recorded => recorded.1.sendingSide.Recorded recorded.2)
      (fun source label target sound holds stepped => by
        obtain ⟨stepped, noted⟩ := withHistory_eq_some.mp stepped
        rw [noted]
        exact Recorded_step sound holds stepped)
      { fresh := fun _ member => absurd member List.not_mem_nil
        pendingOffer := fun isPending => absurd rfl isPending
        queued := fun _ member => absurd member List.not_mem_nil
        current := fun _ member => absurd member List.not_mem_nil }
  exact Recorded.honoursSizes sound

/-- A file at `a`. -/
def sourceFiles (content : List UInt8) : Files := fun path =>
  if path = components "a" then some (.file content) else none

/-- `a` is offered, changed, accepted at byte zero and sent. -/
def changedSend (content : List UInt8) : List SourceLabel :=
  [.peer (.command (.sendFile "a" false false) .none),
    .change (sourceFiles content),
    .peer (.control ⟨.ready, 0⟩ .none),
    .peer (.send .start),
    .peer (.send (.openSource (.opened false))),
    .peer (.send (.readChunk content.length)),
    .peer (.send .readEnd),
    .peer (.send .takeChunk),
    .peer (.send .writeChunk),
    .peer (.send (.finish false))]

theorem send_honours_rewritten_source :
    ∃ recorded,
      Run recordedStep SourceHolds (.initial (sourceFiles [1]), [])
          (changedSend [2]) recorded ∧
        recorded.2 = [⟨⟨"a", false, 0, 0⟩, [2], some [.fileSent "NONE"]⟩] ∧
          HonoursSizes recorded := by
  have ran :
      (guardedReplay recordedStep SourceHolds
          (.initial (sourceFiles [1]), []) (changedSend [2])).map
          Prod.snd =
        some [⟨⟨"a", false, 0, 0⟩, [2], some [.fileSent "NONE"]⟩] := by
    decide +kernel
  obtain ⟨recorded, reached, isRecord⟩ := Option.map_eq_some_iff.mp ran
  have run := run_of_guardedReplay reached
  exact
    ⟨recorded, run, isRecord,
      send_honours_announced_size (sourceFiles [1]) (changedSend [2])
        recorded run⟩

/-- Behind an announced size of one byte, a file that has grown to two is sent
with both. -/
theorem grown_source_overruns :
    ∃ recorded,
      Run recordedStep anyStep (.initial (sourceFiles [1]), [])
          (changedSend [2, 3]) recorded ∧
        recorded.1.fileOut = [2, 3] ∧ recorded.1.sizes = [(0, 1)] ∧
          ¬HonoursSizes recorded := by
  have ran :
      (replay recordedStep (.initial (sourceFiles [1]), [])
          (changedSend [2, 3])).map
          (fun recorded =>
            (recorded.2, recorded.1.fileOut, recorded.1.sizes)) =
        some
          ([⟨⟨"a", false, 0, 0⟩, [2, 3], some [.fileSent "NONE"]⟩],
            [2, 3], [(0, 1)]) := by
    decide +kernel
  obtain ⟨recorded, reached, same⟩ := Option.map_eq_some_iff.mp ran
  injection same with isRecord same
  injection same with isOut isSizes
  refine ⟨recorded, run_of_replay reached, isOut, isSizes, ?_⟩
  intro honours
  have bounded :=
    (honours ⟨⟨"a", false, 0, 0⟩, [2, 3], some [.fileSent "NONE"]⟩
        (by rw [isRecord]; exact List.mem_cons_self) 1
        (by rw [isSizes]; exact List.mem_cons_self)).bounded
  exact absurd bounded (by decide)

end Quiczilla
