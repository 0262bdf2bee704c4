import Quiczilla.ControlFraming
import Quiczilla.ControlMessages
import Quiczilla.Peer
import Quiczilla.ReceiveSide

/-!
# Control messages from one peer to the other

What a peer writes for short file names fits the reader's limit, and what it
writes, mixed with keep-alives and cut into arbitrary chunks, is read back as
the same messages.
-/

namespace Quiczilla

open Foundation

/-! ## What a peer writes -/

/-- Every message written so far is short, and so are the values that later
messages are made of. -/
structure Peer.SpeaksShort (peer : Peer) : Prop where
  letters : ∀ letter ∈ peer.outbox, letter.message.Short
  offered :
    ∀ size, peer.coordinator.offeredFileSize = some size → size < 2 ^ 64
  digest :
    ∀ stream hash,
      peer.sender = .streaming stream → stream.reader = .finished hash →
        hash.utf8ByteSize ≤ 256

/-- A file name of at most 255 bytes, and sizes as the types of the program
have them. -/
def ShortNames (peer : Peer) : PeerLabel → Prop
  | .control letter _ => letter.message.InRange
  | .command (.sendFile path _ _) _ =>
      ((fileName (components path)).getD "").utf8ByteSize ≤ 255 ∧
        ∀ size,
          peer.files.length? (components path) = some size → size < 2 ^ 64
  | _ => True

theorem sha256Hex_size (content : List UInt8) :
    (sha256Hex content).utf8ByteSize ≤ 256 := by
  have size := utf8ByteSize_ofList_le (sha256Hex content).toList
  rwa [String.ofList_toList, length_sha256Hex] at size

theorem computed_hash_size
    {content : Option (List UInt8)} {hash : String}
    (isHash : content.map sha256Hex = some hash) :
    hash.utf8ByteSize ≤ 256 := by
  obtain ⟨bytes, _, rfl⟩ := Option.map_eq_some_iff.mp isHash
  exact sha256Hex_size bytes

namespace Peer.SpeaksShort

variable {peer next : Peer}

theorem initial (files : Files) : (Peer.initial files).SpeaksShort where
  letters := by
    intro letter member
    cases member
  offered := by
    intro size isOffered
    cases isOffered
  digest := by
    intro stream hash isStreaming
    cases isStreaming

/-- A step that neither writes, nor records an offer, nor concerns the send
task. -/
theorem congr
    (speaks : peer.SpeaksShort) (sameOutbox : next.outbox = peer.outbox)
    (sameOffered :
      next.coordinator.offeredFileSize = peer.coordinator.offeredFileSize)
    (sameSender : next.sender = peer.sender) :
    next.SpeaksShort where
  letters := by
    rw [sameOutbox]
    exact speaks.letters
  offered := by
    rw [sameOffered]
    exact speaks.offered
  digest := by
    rw [sameSender]
    exact speaks.digest

theorem send
    (speaks : peer.SpeaksShort) (message : ControlMessage)
    (short : message.Short) (offer : Nat) :
    (peer.send message offer).SpeaksShort where
  letters := by
    intro letter member
    rcases List.mem_append.mp member with before | last
    · exact speaks.letters letter before
    · rw [List.mem_singleton.mp last]
      exact short
  offered := speaks.offered
  digest := speaks.digest

/-- The offer is taken. -/
theorem clearOffer (speaks : peer.SpeaksShort) :
    peer.clearOffer.SpeaksShort where
  letters := speaks.letters
  offered := by
    intro size isOffered
    cases isOffered
  digest := speaks.digest

theorem acceptFresh (speaks : peer.SpeaksShort) (job : RecvJob) :
    (peer.acceptFresh job).SpeaksShort := by
  have triggered : (peer.triggerRecv job).SpeaksShort :=
    speaks.congr rfl rfl rfl
  exact triggered.send .ready trivial job.offer

theorem fingerprint_size
    {path : UnixPath} {faults : Faults} {hash : String}
    (isHash : hash ∈ peer.fingerprint path faults) :
    hash.utf8ByteSize ≤ 256 := by
  unfold Peer.fingerprint computePrefixHash at isHash
  split at isHash
  · cases isHash
  · obtain ⟨content, _, rfl⟩ := Option.map_eq_some_iff.mp isHash
    exact sha256Hex_size _

theorem truncateTo
    (speaks : peer.SpeaksShort) (path : UnixPath) (length : Nat)
    (faults : Faults) :
    (peer.truncateTo path length faults).SpeaksShort := by
  unfold Peer.truncateTo
  split
  · exact speaks
  · split
    · exact speaks.congr rfl rfl rfl
    · exact speaks

theorem offerResume
    (speaks : peer.SpeaksShort) {job : RecvJob}
    (inRange : job.resumeOffset < 2 ^ 64) (path : UnixPath)
    (faults : Faults) :
    (peer.offerResume job path faults).SpeaksShort := by
  have waiting : (peer.awaitResume job).SpeaksShort :=
    speaks.congr rfl rfl rfl
  refine
    waiting.send
      (.resumeReady job.resumeOffset (peer.fingerprint path faults))
      ⟨inRange, ?_⟩ job.offer
  intro hash isHash
  exact fingerprint_size isHash

theorem handleAccept
    (speaks : peer.SpeaksShort) (accept : PendingAccept) (name : String)
    {size : Nat} (inRange : size < 2 ^ 64) (faults : Faults) :
    (peer.handleAccept accept name size faults).SpeaksShort := by
  have staged (path : Option UnixPath) :
      (peer.withPartPath path).SpeaksShort :=
    speaks.congr rfl rfl rfl
  simp only [Peer.handleAccept]
  split
  · split
    · split
      · split
        · refine ((staged _).truncateTo _ _ _).offerResume ?_ _ _
          exact Nat.lt_of_le_of_lt (alignedOffset_le _ _).2 inRange
        · exact (staged _).acceptFresh _
      · split
        · exact (staged _).offerResume inRange _ _
        · exact (staged _).acceptFresh _
    · exact (staged _).acceptFresh _
  · exact (staged _).acceptFresh _

theorem recordOffer
    (speaks : peer.SpeaksShort) (name : String) {size : Nat}
    (inRange : size < 2 ^ 64) (mayResume checksum : Bool) (offer : Nat) :
    (peer.recordOffer name size mayResume checksum offer).SpeaksShort where
  letters := speaks.letters
  offered := by
    intro offered isOffered
    cases isOffered
    exact inRange
  digest := speaks.digest

theorem handleMetadata
    (speaks : peer.SpeaksShort) (name : String) {size : Nat}
    (inRange : size < 2 ^ 64) (mayResume checksum : Bool) (offer : Nat)
    (faults : Faults) :
    (peer.handleMetadata name size mayResume checksum offer
      faults).SpeaksShort := by
  have recorded :=
    speaks.recordOffer name inRange mayResume checksum offer
  unfold Peer.handleMetadata
  split
  · have taken :
        ((peer.recordOffer name size mayResume checksum
            offer).setPendingAccept none).SpeaksShort :=
      recorded.congr rfl rfl rfl
    exact taken.clearOffer.handleAccept _ _ inRange _
  · exact recorded

theorem handleResumeReady
    (speaks : peer.SpeaksShort) (offset : Nat) (prefixHash : Option String)
    (faults : Faults) :
    (peer.handleResumeReady offset prefixHash faults).SpeaksShort := by
  unfold Peer.handleResumeReady
  split
  · split
    · split
      · have answered := speaks.send .resumeOk trivial peer.lastOffer
        exact answered.congr rfl rfl rfl
      · rename_i pending _ _ _
        have marked :
            (peer.setPendingSend
              (some { pending with resume := false })).SpeaksShort :=
          speaks.congr rfl rfl rfl
        exact marked.send .restartFromZero trivial _
    · exact speaks.congr rfl rfl rfl
  · exact speaks

theorem handleRestart
    (speaks : peer.SpeaksShort) (faults : Faults) :
    (peer.handleRestart faults).SpeaksShort := by
  have cleared : peer.clearResume.SpeaksShort := speaks.congr rfl rfl rfl
  unfold Peer.handleRestart
  split
  · refine acceptFresh ?_ _
    unfold Peer.recreatePart
    split
    · split
      · exact cleared
      · split
        · exact cleared.congr rfl rfl rfl
        · exact cleared
    · exact cleared
  · exact speaks

/-- A control message. -/
theorem handleControl
    (speaks : peer.SpeaksShort) {letter : Letter}
    (inRange : letter.message.InRange) (faults : Faults) :
    (peer.handleControl letter faults).SpeaksShort := by
  have dispatched : (peer.dispatch letter faults).SpeaksShort := by
    obtain ⟨message, offer⟩ := letter
    cases message with
    | metadata name size mayResume checksum =>
        exact
          speaks.handleMetadata name inRange mayResume checksum offer faults
    | ready =>
        change peer.handleReady.SpeaksShort
        unfold Peer.handleReady
        split
        · exact speaks.congr rfl rfl rfl
        · exact speaks
    | resumeReady offset prefixHash =>
        exact speaks.handleResumeReady offset prefixHash faults
    | resumeOk =>
        change peer.handleResumeOk.SpeaksShort
        unfold Peer.handleResumeOk
        split
        · exact speaks.congr rfl rfl rfl
        · exact speaks
    | restartFromZero => exact speaks.handleRestart faults
    | _ => exact speaks.congr rfl rfl rfl
  exact dispatched.congr rfl rfl rfl

/-- A command. -/
theorem handleCommand
    (speaks : peer.SpeaksShort) {command : PeerCommand} {faults : Faults}
    (short : ShortNames peer (.command command faults)) :
    (peer.handleCommand command faults).SpeaksShort := by
  cases command with
  | sendFile path checksum mayResume =>
      change
        (peer.handleSendFile ⟨path, checksum, mayResume⟩
          faults).SpeaksShort
      unfold Peer.handleSendFile
      split
      · exact speaks
      · split
        · rename_i size isSize
          have noted :
              (Peer.emit
                { peer with
                  coordinator :=
                    { peer.coordinator with
                      pendingSendPath := some ⟨path, checksum, mayResume⟩
                      announced := peer.coordinator.announced ++ [path] } }
                (.transferInitiationChanged true)).SpeaksShort :=
            speaks.congr rfl rfl rfl
          exact
            noted.send
              (.metadata ((fileName (components path)).getD "") size
                mayResume checksum)
              ⟨short.1, short.2 size isSize⟩ _
        · exact speaks
  | acceptFile saveDir checksum mayResume =>
      change
        (peer.handleAcceptFile ⟨saveDir, checksum, mayResume⟩
          faults).SpeaksShort
      unfold Peer.handleAcceptFile
      split
      · rename_i name size _ isSize
        exact speaks.clearOffer.handleAccept _ _ (speaks.offered size isSize) _
      · exact speaks.clearOffer.congr rfl rfl rfl
  | rejectFile =>
      exact speaks.clearOffer.send .rejectedUnwanted trivial _
  | pause =>
      have paused : (peer.setPaused true).SpeaksShort :=
        speaks.congr rfl rfl rfl
      have told := paused.send .pause trivial 0
      exact told.congr rfl rfl rfl
  | resume =>
      have resumed : (peer.setPaused false).SpeaksShort :=
        speaks.congr rfl rfl rfl
      have told := resumed.send .resume trivial 0
      exact told.congr rfl rfl rfl
  | disconnect => exact speaks.congr rfl rfl rfl

/-- The send task is somewhere else in its iteration. -/
theorem withSender
    (speaks : peer.SpeaksShort) (sameOutbox : next.outbox = peer.outbox)
    (sameOffered :
      next.coordinator.offeredFileSize = peer.coordinator.offeredFileSize)
    (digest :
      ∀ stream hash,
        next.sender = .streaming stream → stream.reader = .finished hash →
          hash.utf8ByteSize ≤ 256) :
    next.SpeaksShort where
  letters := by
    rw [sameOutbox]
    exact speaks.letters
  offered := by
    rw [sameOffered]
    exact speaks.offered
  digest := digest

theorem inlineHash_size (stream : SendStream) :
    stream.inlineHash.utf8ByteSize ≤ 256 := by
  unfold SendStream.inlineHash
  split
  · exact sha256Hex_size _
  · decide

theorem finalHash_size
    {stream : SendStream} {inlineHash : String}
    (inlineSize : inlineHash.utf8ByteSize ≤ 256) (rehashFails : Bool) :
    (peer.finalHash stream inlineHash rehashFails).utf8ByteSize ≤ 256 := by
  unfold Peer.finalHash
  split
  · split
    · decide
    · cases isHash :
        computeFileSha256 peer.files (components stream.job.path) with
      | none => decide
      | some hash => exact computed_hash_size isHash
  · exact inlineSize

theorem sendStep
    (speaks : peer.SpeaksShort) {label : SendLabel}
    (stepped : peer.sendStep label = some next) :
    next.SpeaksShort := by
  have stopped {before : Peer} (sameOutbox : before.outbox = peer.outbox)
      (sameOffered :
        before.coordinator.offeredFileSize =
          peer.coordinator.offeredFileSize)
      (isIdle : before.sender = .idle) :
      before.SpeaksShort := by
    refine speaks.withSender sameOutbox sameOffered ?_
    intro stream hash isStreaming
    rw [isIdle] at isStreaming
    cases isStreaming
  have streams {stream : SendStream} {before : Peer}
      (sameOutbox : before.outbox = peer.outbox)
      (sameOffered :
        before.coordinator.offeredFileSize =
          peer.coordinator.offeredFileSize)
      (digest :
        ∀ hash, stream.reader = .finished hash →
          hash.utf8ByteSize ≤ 256) :
      (before.withStream stream).SpeaksShort := by
    refine speaks.withSender sameOutbox sameOffered ?_
    intro other hash isStreaming isFinished
    cases isStreaming
    exact digest hash isFinished
  cases sendStep_effect stepped with
  | started job rest isIdle queued =>
      refine speaks.withSender rfl rfl ?_
      intro stream hash isStreaming
      cases isStreaming
  | openFailed job reason opening => exact stopped rfl rfl rfl
  | opened job totalBytes opening => exact streams rfl rfl nofun
  | read stream length bytes streaming reading isBytes isLength =>
      refine streams rfl rfl ?_
      intro hash isFinished
      cases reading.symm.trans isFinished
  | readEnded stream content streaming reading isSource atEnd =>
      refine streams rfl rfl ?_
      intro hash isFinished
      cases isFinished
      exact inlineHash_size stream
  | readFailed stream streaming => exact streams rfl rfl nofun
  | took stream chunk rest streaming isTaken isChunks =>
      exact
        streams rfl rfl fun hash isFinished =>
          speaks.digest stream hash streaming isFinished
  | wrote stream chunk streaming isTaken =>
      exact
        streams rfl rfl fun hash isFinished =>
          speaks.digest stream hash streaming isFinished
  | wroteStopped stream chunk length streaming isTaken =>
      exact stopped rfl rfl rfl
  | reported stream => exact speaks.congr rfl rfl rfl
  | gaveUp stream streaming => exact stopped rfl rfl rfl
  | finished stream inlineHash rehashFails streaming noneTaken noChunks
      isFinished =>
      have inlineSize := speaks.digest stream inlineHash streaming isFinished
      have idle :
          (Peer.emit { peer with sender := .idle }
            (.transferProgress stream.bytesTransferred stream.totalBytes
              true)).SpeaksShort :=
        stopped rfl rfl rfl
      exact
        idle.send
          (.fileSent (peer.finalHash stream inlineHash rehashFails))
          (finalHash_size inlineSize rehashFails) stream.job.offer

theorem recvStep
    (speaks : peer.SpeaksShort) {label : RecvLabel}
    (stepped : peer.recvStep label = some next) :
    next.SpeaksShort := by
  have failed {before : Peer} (status : FileTransferStatus)
      (same : before.SpeaksShort) :
      (before.failReceive status).SpeaksShort := by
    have stopped : ({ before with receiver := .stopped } : Peer).SpeaksShort :=
      same.congr rfl rfl rfl
    exact (stopped.send .receivedFileFailed trivial 0).congr rfl rfl rfl
  have completed {before : Peer} (verifying : Verifying) (hash : String)
      (same : before.SpeaksShort) :
      (before.completeReceive verifying hash).SpeaksShort := by
    have idle :
        ({ before with
          receiver := .idle
          receipts := before.receipts ++ [⟨verifying, hash⟩] } :
            Peer).SpeaksShort :=
      same.congr rfl rfl rfl
    exact
      (idle.send .receivedFileOk trivial verifying.job.offer).congr rfl rfl
        rfl
  cases recvStep_effect stepped with
  | refused job files => exact failed _ (speaks.congr rfl rfl rfl)
  | seekFailed job files opened => exact failed _ (speaks.congr rfl rfl rfl)
  | gaveUp receiving => exact failed _ speaks
  | rejected verifying rest => exact failed _ (speaks.congr rfl rfl rfl)
  | completed verifying hash rest =>
      exact completed _ _ (speaks.congr rfl rfl rfl)
  | committed verifying hash rest renamed =>
      exact completed _ _ (speaks.congr rfl rfl rfl)
  | _ => exact speaks.congr rfl rfl rfl

theorem step
    (speaks : peer.SpeaksShort) {label : PeerLabel}
    (short : ShortNames peer label)
    (stepped : peerStep peer label = some next) :
    next.SpeaksShort := by
  cases label with
  | control letter faults =>
      simp only [peerStep] at stepped
      split at stepped <;> cases stepped
      exact speaks.handleControl short faults
  | command command faults =>
      simp only [peerStep] at stepped
      split at stepped <;> cases stepped
      exact speaks.handleCommand short
  | loopEnds reason =>
      simp only [peerStep] at stepped
      split at stepped <;> cases stepped
      cases reason <;> exact speaks.congr rfl rfl rfl
  | send sendLabel => exact speaks.sendStep stepped
  | recv recvLabel => exact speaks.recvStep stepped

end Peer.SpeaksShort

/-! ## What the other peer reads -/

/-- No command and no cancellation wins `select!`. -/
def Uninterrupted (_ : SelectState) : SelectEvent → Prop
  | .command _ | .cancelled => False
  | _ => True

instance (state : SelectState) (event : SelectEvent) :
    Decidable (Uninterrupted state event) := by
  delta Uninterrupted
  split <;> infer_instance

/-- The texts of messages and keep-alives, in the order in which they are
written. -/
def frameTexts (json : SerdeJson) (frames : List (Option ControlMessage)) :
    List String :=
  frames.map fun frame =>
    match frame with
    | some message => message.serialize json
    | none => ""

/-- What the loop makes of the texts it obtained: an empty one is a
keep-alive. -/
def receivedMessages (json : SerdeJson) (texts : List String) :
    List (Option ControlMessage) :=
  (texts.filter (· ≠ "")).map (ControlMessage.parse json)

theorem receivedMessages_frameTexts
    {json : SerdeJson} (lawful : json.Lawful)
    {frames : List (Option ControlMessage)}
    (inRange : ∀ message, some message ∈ frames → message.InRange) :
    receivedMessages json (frameTexts json frames) =
      frames.reduceOption.map some := by
  induction frames with
  | nil => rfl
  | cons frame rest inductionHypothesis =>
      have others :=
        inductionHypothesis fun message member =>
          inRange message (List.mem_cons_of_mem _ member)
      cases frame with
      | none => exact others
      | some message =>
          have parsed :=
            parse_serialized lawful
              (inRange message List.mem_cons_self)
          have notEmpty := serialize_ne_empty json message
          calc
            receivedMessages json (frameTexts json (some message :: rest)) =
                ControlMessage.parse json (message.serialize json) ::
                  receivedMessages json (frameTexts json rest) := by
              rw [receivedMessages, frameTexts, List.map_cons,
                List.filter_cons_of_pos (by simpa using notEmpty)]
              rfl
            _ = (some message :: rest).reduceOption.map some := by
              rw [parsed, others]
              rfl

/-- Behind the last frame there is nothing but the end of the stream. -/
theorem readControlMessage_ends
    {loop : PeerLoop} {future : ReadFuture}
    {buffer toCome remaining : List UInt8} {closed : Bool}
    {rest : List String} {outcome : ReadOutcome}
    (limited :
      ∀ message, message ∈ rest →
        message.utf8ByteSize ≤ maxControlMessageBytes)
    (expects : future.Expects loop buffer toCome rest)
    (complete : closed = true → toCome = [])
    (finished :
      readControlMessage future buffer closed =
        .finished outcome remaining) :
    (∃ text, outcome = .message text) ∨ outcome = .endOfStream := by
  have polled := readControlMessage_expects closed limited expects complete
  rw [finished] at polled
  cases outcome with
  | message text => exact Or.inl ⟨text, rfl⟩
  | endOfStream => exact Or.inr rfl
  | _ =>
      have noneLeft : rest = [] := polled
      subst noneLeft
      cases future with
      | body length taken =>
          obtain ⟨message, more, isRest, _⟩ := expects
          cases isRest
      | header taken =>
          have nothing : taken ++ buffer ++ toCome = [] := expects.2
          simp only [List.append_eq_nil_iff] at nothing
          obtain ⟨⟨rfl, rfl⟩, _⟩ := nothing
          cases closed <;> cases finished

/-- At the end of the stream every poll finishes. -/
theorem readControlMessage_finishes
    (future : ReadFuture) (buffer : List UInt8) :
    ∃ outcome remaining,
      readControlMessage future buffer true =
        .finished outcome remaining := by
  have bodyFinishes (length : Nat) (taken buffer : List UInt8) :
      ∃ outcome remaining,
        pollBody length taken buffer true = .finished outcome remaining := by
    unfold pollBody
    split
    · exact ⟨_, _, rfl⟩
    · exact ⟨_, _, rfl⟩
  cases future with
  | body length taken => exact bodyFinishes length taken buffer
  | header taken =>
      rw [readControlMessage, pollHeader]
      split
      · exact ⟨_, _, rfl⟩
      · split
        · exact ⟨_, _, rfl⟩
        · split
          · exact ⟨_, _, rfl⟩
          · exact bodyFinishes _ _ _

/-- The reading has not ended, or ended behind the last frame. -/
def SelectState.EndsCleanly (state : SelectState) : Prop :=
  state.ended = none ∨ state.ended = some (.reader .endOfStream)

theorem selectStep_endsCleanly
    {loop : PeerLoop} {messages : List String} {toCome : List UInt8}
    {state next : SelectState} {event : SelectEvent}
    (limited :
      ∀ message, message ∈ messages →
        message.utf8ByteSize ≤ maxControlMessageBytes)
    (aligned :
      state.Aligned loop messages (event.arrived ++ toCome))
    (clean : state.EndsCleanly)
    (uninterrupted : Uninterrupted state event)
    (stepped : selectStep loop state event = some next) :
    next.EndsCleanly := by
  cases event with
  | arrive chunk =>
      simp only [selectStep] at stepped
      split at stepped <;> cases stepped
      exact clean
  | finish =>
      simp only [selectStep] at stepped
      split at stepped <;> cases stepped
      exact clean
  | command command => exact uninterrupted.elim
  | cancelled => exact uninterrupted.elim
  | poll =>
      obtain ⟨complete, rest, split, _, expects⟩ := aligned
      simp only [selectStep, loop_reader_eq] at stepped
      split at stepped
      · cases stepped
      · rename_i running
        have notEnded : state.ended = none := by
          simpa using running
        split at stepped
        · cases stepped
          exact clean
        · rename_i outcome remaining finished
          cases stepped
          have restLimited :
              ∀ message, message ∈ rest →
                message.utf8ByteSize ≤ maxControlMessageBytes := by
            intro message member
            apply limited
            rw [split]
            exact List.mem_append_right _ member
          rcases
            readControlMessage_ends restLimited (expects notEnded) complete
              finished with
            ⟨text, rfl⟩ | rfl
          · exact Or.inl notEnded
          · exact Or.inr rfl

/-- Along an uninterrupted run the loop stays aligned with the frames, and
ends, if at all, behind the last one. -/
theorem uninterrupted_run
    {loop : PeerLoop} {messages : List String}
    {state final : SelectState} {events : List SelectEvent}
    (limited :
      ∀ message, message ∈ messages →
        message.utf8ByteSize ≤ maxControlMessageBytes)
    (run : Run (selectStep loop) Uninterrupted state events final)
    (aligned : state.Aligned loop messages (arrivals events))
    (clean : state.EndsCleanly) :
    final.Aligned loop messages [] ∧ final.EndsCleanly := by
  induction run with
  | refl state => exact ⟨aligned, clean⟩
  | @cons source middle target event rest uninterrupted stepped restRun
      inductionHypothesis =>
      have between : BetweenFrames source event := by
        rintro command rfl
        exact uninterrupted.elim
      have last : event = .finish → arrivals rest = [] := by
        rintro rfl
        apply arrivals_eq_nil_of_closed _ restRun.replay_eq
        simp only [selectStep] at stepped
        split at stepped <;> cases stepped
        rfl
      exact
        inductionHypothesis
          (selectStep_aligned limited aligned last between stepped)
          (selectStep_endsCleanly limited aligned clean uninterrupted
            stepped)

theorem obtained_of_ended
    {loop : PeerLoop} {messages : List String} {state : SelectState}
    (aligned : state.Aligned loop messages [])
    (ended : state.ended = some (.reader .endOfStream)) :
    state.obtained = messages := by
  obtain ⟨_, rest, split, readerEnd, _⟩ := aligned
  rw [split, readerEnd _ ended, List.append_nil]

/-- A poll after the end of the stream obtains one more message or sees the
end. -/
theorem poll_closed
    {loop : PeerLoop} {messages : List String} {state : SelectState}
    (limited :
      ∀ message, message ∈ messages →
        message.utf8ByteSize ≤ maxControlMessageBytes)
    (aligned : state.Aligned loop messages [])
    (notEnded : state.ended = none) (closed : state.closed = true) :
    ∃ next,
      selectStep loop state .poll = some next ∧
        next.Aligned loop messages [] ∧ next.closed = true ∧
          (next.ended = some (.reader .endOfStream) ∨
            next.ended = none ∧
              next.obtained.length = state.obtained.length + 1) := by
  obtain ⟨outcome, remaining, finished⟩ :=
    readControlMessage_finishes state.future state.buffer
  have stepped :
      selectStep loop state .poll =
        some (state.obtain outcome remaining) := by
    simp only [selectStep, loop_reader_eq, closed, finished, notEnded,
      Option.isSome_none]
    rfl
  have between : BetweenFrames state .poll := by
    rintro command isCommand
    cases isCommand
  have alignedNext :=
    selectStep_aligned limited aligned (fun _ => rfl) between stepped
  have uninterrupted : Uninterrupted state .poll := trivial
  have cleanNext :=
    selectStep_endsCleanly limited aligned (Or.inl notEnded) uninterrupted
      stepped
  refine ⟨_, stepped, alignedNext, ?_, ?_⟩
  · cases outcome <;> exact closed
  · cases outcome with
    | message text =>
        refine Or.inr ⟨notEnded, ?_⟩
        rw [SelectState.obtain, List.length_append]
        rfl
    | _ =>
        rcases cleanNext with running | ended
        · cases running
        · exact Or.inl ended

/-- Once the stream has ended, polls obtain the frames that are left and then
see the end. -/
theorem polls_reach_end
    {loop : PeerLoop} {messages : List String}
    (limited :
      ∀ message, message ∈ messages →
        message.utf8ByteSize ≤ maxControlMessageBytes)
    (left : Nat) {state : SelectState}
    (isLeft : state.obtained.length + left = messages.length)
    (aligned : state.Aligned loop messages [])
    (notEnded : state.ended = none) (closed : state.closed = true) :
    ∃ count last,
      replay (selectStep loop) state (List.replicate count .poll) =
          some last ∧
        last.ended = some (.reader .endOfStream) ∧
          last.obtained = messages := by
  obtain ⟨next, stepped, alignedNext, closedNext, progress⟩ :=
    poll_closed limited aligned notEnded closed
  rcases progress with ended | ⟨running, longer⟩
  · exact
      ⟨1, next, replay_cons_eq_some.mpr ⟨next, stepped, rfl⟩, ended,
        obtained_of_ended alignedNext ended⟩
  · cases left with
    | zero =>
        obtain ⟨_, rest, split, _⟩ := alignedNext
        have total := congrArg List.length split
        rw [List.length_append] at total
        omega
    | succ left =>
        obtain ⟨count, last, ran, ended, obtained⟩ :=
          polls_reach_end limited left (by omega) alignedNext running
            closedNext
        exact
          ⟨count + 1, last,
            replay_cons_eq_some.mpr ⟨next, stepped, ran⟩, ended, obtained⟩

/-- Parsing undoes serialising; messages and keep-alives that fit the limit
are read back from every chunking, with a clean end behind them; and whatever
a peer writes for file names of at most 255 bytes fits the limit. -/
theorem control_messages_survive
    (json : SerdeJson) (lawful : json.Lawful) :
    (∀ message : ControlMessage, message.InRange →
      ControlMessage.parse json (message.serialize json) = some message) ∧
    (∀ (loop : PeerLoop) (frames : List (Option ControlMessage))
        (events : List SelectEvent) (final : SelectState),
      (∀ message, some message ∈ frames →
        message.InRange ∧
          (message.serialize json).utf8ByteSize ≤
            maxControlMessageBytes) →
      arrivals events = wire loop (frameTexts json frames) →
      Run (selectStep loop) Uninterrupted .initial events final →
      final.closed = true →
      ∃ count last,
        replay (selectStep loop) final (List.replicate count .poll) =
            some last ∧
          last.ended = some (.reader .endOfStream) ∧
          receivedMessages json last.obtained =
            frames.reduceOption.map some) ∧
    (∀ (files : Files) (labels : List PeerLabel) (peer : Peer),
      Run peerStep ShortNames (.initial files) labels peer →
      ∀ letter ∈ peer.outbox,
        (letter.message.serialize json).utf8ByteSize ≤
          maxControlMessageBytes) := by
  refine ⟨?_, ?_, ?_⟩
  · intro message inRange
    exact parse_serialized lawful inRange
  · intro loop frames events final fits delivered run closed
    have limited :
        ∀ text ∈ frameTexts json frames,
          text.utf8ByteSize ≤ maxControlMessageBytes := by
      intro text member
      obtain ⟨frame, isFrame, rfl⟩ := List.mem_map.mp member
      cases frame with
      | some message => exact (fits message isFrame).2
      | none => exact Nat.zero_le _
    have parsed :=
      receivedMessages_frameTexts lawful
        fun message member => (fits message member).1
    have aligned := initial_aligned loop (frameTexts json frames)
    rw [← delivered] at aligned
    obtain ⟨alignedEnd, clean⟩ :=
      uninterrupted_run limited run aligned (Or.inl rfl)
    rcases clean with notEnded | ended
    · have bounded :
          final.obtained.length ≤ (frameTexts json frames).length := by
        obtain ⟨_, rest, split, _⟩ := alignedEnd
        rw [split, List.length_append]
        exact Nat.le_add_right _ _
      obtain ⟨count, last, ran, ended, obtained⟩ :=
        polls_reach_end limited _ (Nat.add_sub_cancel' bounded) alignedEnd
          notEnded closed
      exact ⟨count, last, ran, ended, by rw [obtained, parsed]⟩
    · refine ⟨0, final, rfl, ended, ?_⟩
      rw [obtained_of_ended alignedEnd ended, parsed]
  · intro files labels peer run letter member
    have speaks :=
      run.preserves Peer.SpeaksShort
        (fun _ _ _ before short stepped => before.step short stepped)
        (Peer.SpeaksShort.initial files)
    exact serialize_size lawful (speaks.letters letter member)

/-- A pause between two keep-alives, cut in the middle of its frame. -/
def cutPause : List SelectEvent :=
  [.arrive [0, 0, 0, 0, 0, 0], .poll, .arrive [0, 5, 80, 65], .poll,
    .arrive [85, 83, 69, 0, 0, 0, 0], .finish]

theorem control_messages_survive_cut_pause :
    ControlMessage.parse SerdeJson.compact
        ((ControlMessage.metadata "a\"b" 7 true false).serialize
          SerdeJson.compact) =
        some (.metadata "a\"b" 7 true false) ∧
      (∃ final count last,
        replay (selectStep .runPeerGeneric) .initial cutPause =
            some final ∧
          replay (selectStep .runPeerGeneric) final
              (List.replicate count .poll) =
            some last ∧
          last.ended = some (.reader .endOfStream) ∧
          receivedMessages SerdeJson.compact last.obtained =
            [some .pause]) ∧
      (ControlMessage.pause.serialize
          SerdeJson.compact).utf8ByteSize ≤ maxControlMessageBytes := by
  obtain ⟨parsed, delivered, fits⟩ :=
    control_messages_survive SerdeJson.compact compact_lawful
  refine ⟨parsed (.metadata "a\"b" 7 true false) ?_, ?_, ?_⟩
  · exact (by decide : 7 < 2 ^ 64)
  · have ran :
        guardedReplay (selectStep .runPeerGeneric) Uninterrupted .initial
            cutPause =
          some
            { buffer := [85, 83, 69, 0, 0, 0, 0]
              closed := true
              future := .body 5 [80, 65]
              obtained := [""]
              ended := none } := by
      decide
    have run := run_of_guardedReplay ran
    obtain ⟨count, last, polled, ended, received⟩ :=
      delivered .runPeerGeneric [none, some .pause, none] cutPause _
        (by
          intro message member
          have isPause : message = .pause := by
            simpa using member
          rw [isPause]
          exact ⟨trivial, by decide⟩)
        (by decide) run rfl
    exact ⟨_, count, last, run.replay_eq, polled, ended, received⟩
  · have run :
        Run peerStep ShortNames (.initial fun _ => none)
          [.command .pause .none]
          ((((Peer.initial fun _ => none).setPaused true).send .pause
            0).emit .transferPaused) :=
      Run.single trivial rfl
    exact fits _ _ _ run ⟨.pause, 0⟩ (List.mem_singleton.mpr rfl)

end Quiczilla
