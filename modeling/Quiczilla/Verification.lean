import Quiczilla.Negotiation
import Quiczilla.ReceiveJobs

/-!
# What a completed receive has verified

The receive task compares `actual_hash` with the string of `FILE_SENT`.  The
strings `NONE` and `SKIP` from the sender are an explicit opt-out; any other
string must be the hash of the stored content when the receive was started
with `checksum`.

What a receive has stored is noted when its file is closed: a history variable
that no step reads.
-/

namespace Quiczilla

open Foundation

/-- A receive whose file is closed, and the content of its target then. -/
structure Closed where
  receiving : Receiving
  file : Option (List UInt8)

/-- The receives that are closed, in order. -/
def noteClosed (peer : Peer) (label : PeerLabel) (_ : Peer)
    (history : List Closed) : List Closed :=
  match label, peer.receiver with
  | .recv (.closeFile _ _), .receiving receiving =>
      history ++
        [⟨receiving, peer.files.content? receiving.targetWritePath⟩]
  | _, _ => history

/-- The peer and the history of closed receives. -/
def closingStep :
    Peer × List Closed → PeerLabel → Option (Peer × List Closed) :=
  withHistory peerStep noteClosed

/-- The stored content: what was written from byte zero on, or the file that
was resumed. -/
def Closed.content (closed : Closed) : Option (List UInt8) :=
  if 0 < closed.receiving.job.resumeOffset then closed.file
  else some closed.receiving.stored

/-- The receiver computed the hash of the stored content, and it is the
announced one up to the case of ASCII letters. -/
structure Receipt.Verified (receipt : Receipt) (closed : Closed) :
    Prop where
  job : closed.receiving.job = receipt.verified.job
  target : closed.receiving.targetWritePath = receipt.verified.targetWritePath
  computed :
    ∃ content, closed.content = some content ∧
      receipt.verified.actualHash = sha256Hex content
  announced :
    eqIgnoreAsciiCase receipt.verified.actualHash receipt.expectedHash =
      true

/-- The sender has opted out of the comparison. -/
def optsOut (expectedHash : String) : Bool :=
  expectedHash == "NONE" || expectedHash == "SKIP"

/-- Whether a step that re-reads the stored file succeeds in doing so. -/
def rehashWorks (peer : Peer) : PeerLabel → Bool
  | .recv (.closeFile _ rehashFails) =>
      match peer.receiver with
      | .receiving receiving =>
          !receiving.job.rehashes ||
            (!rehashFails &&
              (peer.files.content? receiving.targetWritePath).isSome)
      | _ => true
  | _ => true

/-- With `checksum`, the hash is that of the content; a receive from byte zero
hashes what it has stored. -/
structure Verifying.Faithful (verifying : Verifying) : Prop where
  hashed :
    verifying.job.checksum = true →
      verifying.actualHash = sha256Hex verifying.content
  fromZero :
    verifying.job.resumeOffset = 0 →
      verifying.content = verifying.stored

theorem sha256Hex_ne_none (content : List UInt8) :
    sha256Hex content ≠ "NONE" := by
  intro same
  have digits := length_sha256Hex content
  rw [same] at digits
  exact absurd digits (by decide)

theorem verifyingOf_faithful
    {peer : Peer} {receiving : Receiving} {rehashFails : Bool}
    (works :
      receiving.job.rehashes = true →
        rehashFails = false ∧
          (peer.files.content? receiving.targetWritePath).isSome =
            true) :
    (peer.verifyingOf receiving rehashFails).Faithful where
  hashed := by
    intro checksum
    change receiving.job.checksum = true at checksum
    simp only [Peer.verifyingOf]
    by_cases rehashes : receiving.job.rehashes = true
    · obtain ⟨succeeds, readable⟩ := works rehashes
      obtain ⟨content, present⟩ := Option.isSome_iff_exists.mp readable
      simp [rehashes, succeeds, present, computeFileSha256]
    · have inline : receiving.job.hashesInline = true := by
        have zero : receiving.job.resumeOffset = 0 := by
          simpa [RecvJob.rehashes, checksum] using rehashes
        simp [RecvJob.hashesInline, checksum, zero]
      simp [rehashes, inline]
  fromZero := by
    intro zero
    change receiving.job.resumeOffset = 0 at zero
    have noRehash : receiving.job.rehashes = false := by
      simp [RecvJob.rehashes, zero]
    simp [Peer.verifyingOf, noRehash]

/-- What is being verified and what has been accepted is hashed faithfully,
and every accepted receive has passed `hash_ok`. -/
structure RecvSide.Checked (side : RecvSide) : Prop where
  verifying :
    ∀ verifying, side.receiver = .verifying verifying →
      verifying.Faithful
  receipts :
    ∀ receipt ∈ side.receipts,
      receipt.verified.Faithful ∧
        hashOk receipt.expectedHash receipt.verified.actualHash = true

theorem RecvSide.Checked.withReceiver
    {side next : RecvSide} (checked : side.Checked)
    (receipts : next.receipts = side.receipts)
    (phase :
      ∀ verifying, next.receiver = .verifying verifying →
        verifying.Faithful) :
    next.Checked := by
  refine ⟨phase, ?_⟩
  rw [receipts]
  exact checked.receipts

theorem taskEffect_checked
    {label : RecvLabel} {peer next : Peer}
    (checked : peer.recvSide.Checked)
    (works : rehashWorks peer (.recv label) = true)
    (effect : TaskEffect label peer next) :
    next.recvSide.Checked := by
  have accepted :
      ∀ {verifying : Verifying} {expectedHash : String},
        peer.receiver = .verifying verifying →
          hashOk expectedHash verifying.actualHash = true →
            ∀ receipt ∈ peer.receipts ++ [⟨verifying, expectedHash⟩],
              receipt.verified.Faithful ∧
                hashOk receipt.expectedHash
                  receipt.verified.actualHash = true := by
    intro verifying expectedHash phase passed receipt member
    rcases List.mem_append.mp member with earlier | new
    · exact checked.receipts receipt earlier
    · rw [List.mem_singleton.mp new]
      exact ⟨checked.verifying verifying phase, passed⟩
  cases effect with
  | closed receiving flushFails rehashFails isClose phase _ _ _ =>
      refine checked.withReceiver rfl ?_
      rintro current ⟨⟩
      rw [isClose, rehashWorks, phase] at works
      apply verifyingOf_faithful
      intro rehashes
      simpa [rehashes] using works
  | completed verifying expectedHash rest phase _ passed _ =>
      exact ⟨nofun, accepted phase passed⟩
  | committed verifying expectedHash rest renamed phase _ passed _ _ =>
      exact ⟨nofun, accepted phase passed⟩
  | reported receiving => exact checked
  | _ => exact checked.withReceiver rfl nofun

theorem peerStep_checked
    {peer next : Peer} {label : PeerLabel}
    (checked : peer.recvSide.Checked)
    (works : rehashWorks peer label = true)
    (stepped : peerStep peer label = some next) :
    next.recvSide.Checked := by
  rcases peerStep_effect stepped with effect | ⟨recvLabel, rfl, effect⟩
  · obtain ⟨sameReceiver, sameReceipts⟩ := loopEffect_receiver effect
    apply checked.withReceiver sameReceipts
    rw [sameReceiver]
    exact checked.verifying
  · exact taskEffect_checked checked works effect

theorem announced_of_checked
    {receipt : Receipt} (faithful : receipt.verified.Faithful)
    (passed :
      hashOk receipt.expectedHash receipt.verified.actualHash = true)
    (checksum : receipt.verified.job.checksum = true)
    (expects : optsOut receipt.expectedHash = false) :
    eqIgnoreAsciiCase receipt.verified.actualHash receipt.expectedHash =
      true := by
  have notNone : (receipt.verified.actualHash == "NONE") = false := by
    rw [faithful.hashed checksum]
    exact beq_false_of_ne (sha256Hex_ne_none _)
  unfold optsOut at expects
  simpa [hashOk, expects, notNone] using passed

/-! ## What was closed -/

/-- What is verified is what was closed; with `checksum` its content is the
one that is hashed. -/
structure Closed.Leads (closed : Closed) (verifying : Verifying) : Prop where
  job : closed.receiving.job = verifying.job
  target : closed.receiving.targetWritePath = verifying.targetWritePath
  content :
    verifying.job.checksum = true →
      closed.content = some verifying.content

/-- What is being verified and what has been accepted was closed before. -/
structure RecvSide.Noted
    (history : List Closed) (side : RecvSide) : Prop where
  verifying :
    ∀ verifying, side.receiver = .verifying verifying →
      ∃ closed ∈ history, closed.Leads verifying
  receipts :
    ∀ receipt ∈ side.receipts,
      ∃ closed ∈ history, closed.Leads receipt.verified

theorem closed_leads
    {peer : Peer} {receiving : Receiving} {rehashFails : Bool}
    (works :
      receiving.job.rehashes = true →
        (peer.files.content? receiving.targetWritePath).isSome = true) :
    Closed.Leads
      ⟨receiving, peer.files.content? receiving.targetWritePath⟩
      (peer.verifyingOf receiving rehashFails) where
  job := rfl
  target := rfl
  content := by
    intro checksum
    change receiving.job.checksum = true at checksum
    by_cases resumed : 0 < receiving.job.resumeOffset
    · have rehashes : receiving.job.rehashes = true := by
        simp [RecvJob.rehashes, checksum, resumed]
      obtain ⟨content, present⟩ :=
        Option.isSome_iff_exists.mp (works rehashes)
      simp [Closed.content, Peer.verifyingOf, rehashes, resumed, present]
    · have noRehash : receiving.job.rehashes = false := by
        simp [RecvJob.rehashes, resumed]
      simp [Closed.content, Peer.verifyingOf, noRehash, resumed]

namespace RecvSide.Noted

variable {history : List Closed} {side next : RecvSide}

theorem more (noted : side.Noted history) (closed : List Closed) :
    side.Noted (history ++ closed) where
  verifying := by
    intro verifying phase
    obtain ⟨entry, member, leads⟩ := noted.verifying verifying phase
    exact ⟨entry, List.mem_append_left _ member, leads⟩
  receipts := by
    intro receipt member
    obtain ⟨entry, noted, leads⟩ := noted.receipts receipt member
    exact ⟨entry, List.mem_append_left _ noted, leads⟩

theorem withReceiver
    (noted : side.Noted history) (receipts : next.receipts = side.receipts)
    (phase :
      ∀ verifying, next.receiver = .verifying verifying →
        ∃ closed ∈ history, closed.Leads verifying) :
    next.Noted history := by
  refine ⟨phase, ?_⟩
  rw [receipts]
  exact noted.receipts

/-- A verified receive is accepted. -/
theorem accept
    (noted : side.Noted history) {verifying : Verifying}
    (phase : side.receiver = .verifying verifying) {expectedHash : String}
    (receipts :
      next.receipts = side.receipts ++ [⟨verifying, expectedHash⟩])
    (idle : next.receiver = .idle) :
    next.Noted history where
  verifying := by
    rw [idle]
    nofun
  receipts := by
    rw [receipts]
    intro receipt member
    obtain earlier | new := List.mem_append.mp member
    · exact noted.receipts receipt earlier
    · rw [List.mem_singleton.mp new]
      exact noted.verifying verifying phase

end RecvSide.Noted

theorem noteClosed_eq (peer next : Peer) (label : PeerLabel)
    (history : List Closed) :
    ∃ more, noteClosed peer label next history = history ++ more := by
  unfold noteClosed
  split
  · exact ⟨_, rfl⟩
  · exact ⟨[], (List.append_nil history).symm⟩

theorem taskEffect_noted
    {label : RecvLabel} {peer next : Peer} {history : List Closed}
    (noted : peer.recvSide.Noted history)
    (works : rehashWorks peer (.recv label) = true)
    (effect : TaskEffect label peer next) :
    next.recvSide.Noted (noteClosed peer (.recv label) next history) := by
  obtain ⟨more, isMore⟩ := noteClosed_eq peer next (.recv label) history
  cases effect with
  | closed receiving flushFails rehashFails isClose phase _ _ _ =>
      rw [isClose, rehashWorks, phase] at works
      simp only [isClose, noteClosed, phase]
      refine (noted.more _).withReceiver rfl ?_
      rintro current ⟨⟩
      refine
        ⟨_, List.mem_append_right _ (List.mem_singleton.mpr rfl),
          closed_leads ?_⟩
      intro rehashes
      simp only [rehashes, Bool.not_true, Bool.false_or,
        Bool.and_eq_true] at works
      exact works.2
  | completed verifying expectedHash rest phase _ _ _ =>
      rw [isMore]
      exact (noted.more _).accept phase rfl rfl
  | committed verifying expectedHash rest renamed phase _ _ _ _ =>
      rw [isMore]
      exact (noted.more _).accept phase rfl rfl
  | reported receiving =>
      rw [isMore]
      exact noted.more _
  | _ =>
      rw [isMore]
      exact (noted.more _).withReceiver rfl nofun

theorem closingStep_noted
    {watched next : Peer × List Closed} {label : PeerLabel}
    (noted : watched.1.recvSide.Noted watched.2)
    (works : rehashWorks watched.1 label = true)
    (stepped : closingStep watched label = some next) :
    next.1.recvSide.Noted next.2 := by
  obtain ⟨stepped, isNoted⟩ := withHistory_eq_some.mp stepped
  rw [isNoted]
  rcases peerStep_effect stepped with effect | ⟨recvLabel, rfl, effect⟩
  · obtain ⟨sameReceiver, sameReceipts⟩ := loopEffect_receiver effect
    obtain ⟨more, isMore⟩ :=
      noteClosed_eq watched.1 next.1 label watched.2
    rw [isMore]
    apply (noted.more more).withReceiver sameReceipts
    rw [sameReceiver]
    exact (noted.more more).verifying
  · exact taskEffect_noted noted works effect

/-! ## Acknowledgements -/

def Peer.acknowledged (peer : Peer) : Nat :=
  peer.outbox.countP fun letter => letter.message == .receivedFileOk

def Peer.completions (peer : Peer) : Nat :=
  peer.events.count (.transferComplete .completed)

/-- `RECEIVED_FILE:OK` is sent exactly for the recorded receives, and
`Completed` is emitted for them and for the acknowledgements of the other
peer. -/
structure Peer.Balanced (peer : Peer) : Prop where
  acknowledgements : peer.acknowledged = peer.receipts.length
  completions :
    peer.completions =
      peer.receipts.length + peer.handled.count .receivedFileOk

/-- The four counts that `Balanced` relates. -/
def Peer.tally (peer : Peer) : Nat × Nat × Nat × Nat :=
  (peer.acknowledged, peer.completions, peer.receipts.length,
    peer.handled.count .receivedFileOk)

theorem balanced_of_tally
    {peer next : Peer} (balanced : peer.Balanced)
    (same : next.tally = peer.tally) :
    next.Balanced := by
  simp only [Peer.tally, Prod.mk.injEq] at same
  obtain ⟨acknowledged, completions, receipts, handled⟩ := same
  constructor
  · rw [acknowledged, receipts, balanced.acknowledgements]
  · rw [completions, receipts, handled, balanced.completions]

theorem send_tally
    (peer : Peer) {message : ControlMessage} (offer : Nat)
    (other : message ≠ .receivedFileOk) :
    (peer.send message offer).tally = peer.tally := by
  simp [Peer.tally, Peer.acknowledged, Peer.completions, Peer.send,
    List.countP_append, other]

theorem emit_tally
    (peer : Peer) {event : PeerEvent}
    (other : event ≠ .transferComplete .completed) :
    (peer.emit event).tally = peer.tally := by
  simp [Peer.tally, Peer.acknowledged, Peer.completions, Peer.emit,
    List.count_append, other]

theorem tally_unnegotiated : Unnegotiated Peer.tally where
  coordinator _ _ := rfl
  triggerSend _ _ := rfl
  triggerRecv _ _ := rfl
  touch _ _ _ := rfl
  send peer message offer negotiates := by
    apply send_tally
    rintro rfl
    cases negotiates
  emit peer event negotiates := by
    apply emit_tally
    rintro rfl
    cases negotiates

/-- A handled message other than `RECEIVED_FILE:OK` leaves the counts. -/
theorem noteHandled_tally
    (peer : Peer) {message : ControlMessage}
    (other : message ≠ .receivedFileOk) :
    (peer.noteHandled message).tally = peer.tally := by
  simp [Peer.tally, Peer.acknowledged, Peer.completions,
    Peer.noteHandled, List.count_append, other]

theorem handleControl_balanced
    {peer : Peer} (balanced : peer.Balanced) (letter : Letter)
    (faults : Faults) :
    (peer.handleControl letter faults).Balanced := by
  obtain ⟨message, offer⟩ := letter
  by_cases isOk : message = .receivedFileOk
  · subst isOk
    have acknowledgements := balanced.acknowledgements
    have completions := balanced.completions
    simp only [Peer.acknowledged, Peer.completions] at *
    constructor
    · exact acknowledgements
    · simp only [Peer.handleControl, Peer.dispatch, Peer.noteHandled,
        Peer.emit, Peer.completions, List.count_append,
        List.count_singleton_self, completions]
      omega
  · apply balanced_of_tally balanced
    rw [Peer.handleControl, noteHandled_tally _ isOk]
    by_cases negotiates : message.negotiates = true
    · exact tally_unnegotiated.dispatch peer negotiates faults
    · cases message with
      | pause => exact emit_tally (peer.setPaused true) (by rintro ⟨⟩)
      | resume => exact emit_tally (peer.setPaused false) (by rintro ⟨⟩)
      | fileSent hash => rfl
      | receivedFileOk => exact absurd rfl isOk
      | receivedFileFailed =>
          exact
            emit_tally { peer with cancelled := true } (by rintro ⟨⟩)
      | rejectedUnwanted => exact emit_tally peer (by rintro ⟨⟩)
      | rejectedAlreadyReceiving => exact emit_tally peer (by rintro ⟨⟩)
      | rejectedAlreadySending => exact emit_tally peer (by rintro ⟨⟩)
      | _ => exact absurd rfl negotiates

theorem handleCommand_tally
    (peer : Peer) (command : PeerCommand) (faults : Faults) :
    (peer.handleCommand command faults).tally = peer.tally := by
  by_cases negotiates : command.negotiates = true
  · exact tally_unnegotiated.handleCommand peer negotiates faults
  · cases command with
    | rejectFile => exact send_tally peer.clearOffer _ (by simp)
    | pause =>
        rw [Peer.handleCommand, emit_tally, send_tally]
        · rfl
        · simp
        · simp
    | resume =>
        rw [Peer.handleCommand, emit_tally, send_tally]
        · rfl
        · simp
        · simp
    | disconnect => rfl
    | _ => exact absurd rfl negotiates

theorem sendStep_tally
    {peer next : Peer} {label : SendLabel}
    (stepped : peer.sendStep label = some next) :
    next.tally = peer.tally := by
  cases sendStep_effect stepped with
  | openFailed job reason _ => exact emit_tally (peer.stopSending _) nofun
  | reported stream => exact emit_tally peer nofun
  | finished stream inlineHash rehashFails _ _ _ _ =>
      rw [send_tally, emit_tally]
      · rfl
      · nofun
      · nofun
  | _ => rfl

theorem failReceive_tally
    (peer : Peer) {status : FileTransferStatus}
    (failed : status ≠ .completed) :
    (peer.failReceive status).tally = peer.tally := by
  rw [Peer.failReceive, emit_tally, send_tally]
  · rfl
  · nofun
  · simpa using failed

/-- A completed receive adds one acknowledgement, one event and one
record. -/
theorem completeReceive_balanced
    {peer : Peer} (balanced : peer.Balanced) (verifying : Verifying)
    (expectedHash : String) :
    (peer.completeReceive verifying expectedHash).Balanced := by
  have acknowledgements := balanced.acknowledgements
  have completions := balanced.completions
  simp only [Peer.acknowledged, Peer.completions] at *
  constructor
  · simp [Peer.completeReceive, Peer.emit, Peer.send, Peer.acknowledged,
      List.countP_append, acknowledgements]
  · simp only [Peer.completeReceive, Peer.emit, Peer.send,
      Peer.completions, List.count_append, List.count_singleton_self,
      List.length_append, List.length_singleton, completions]
    omega

theorem progressed_tally
    (peer : Peer) (verifying : Verifying) (rest : List String) :
    (peer.progressed verifying rest).tally = peer.tally :=
  emit_tally { peer with hashQueue := rest } nofun

theorem recvStep_balanced
    {peer next : Peer} {label : RecvLabel}
    (balanced : peer.Balanced)
    (stepped : peer.recvStep label = some next) :
    next.Balanced := by
  have keeps :
      ∀ {other : Peer}, other.tally = peer.tally → other.Balanced :=
    fun same => balanced_of_tally balanced same
  have completes :
      ∀ {other : Peer} (verifying : Verifying) (expectedHash : String),
        other.tally = peer.tally →
          (other.completeReceive verifying expectedHash).Balanced :=
    fun verifying expectedHash same =>
      completeReceive_balanced (keeps same) verifying expectedHash
  cases recvStep_effect stepped with
  | refused job files _ _ =>
      exact keeps (failReceive_tally { peer with files := files } nofun)
  | seekFailed job files opened _ _ _ =>
      exact
        keeps
          (failReceive_tally (peer.touch [job.targetWritePath] opened)
            nofun)
  | reported receiving => exact keeps (emit_tally peer nofun)
  | gaveUp receiving _ => exact keeps (failReceive_tally peer nofun)
  | rejected verifying rest _ =>
      apply keeps
      rw [failReceive_tally, progressed_tally]
      nofun
  | completed verifying expectedHash rest _ _ _ _ =>
      exact
        completes verifying expectedHash
          (progressed_tally peer verifying rest)
  | committed verifying expectedHash rest renamed _ _ _ _ _ =>
      exact
        completes verifying expectedHash
          (progressed_tally peer verifying rest)
  | _ => exact keeps rfl

theorem peerStep_balanced
    {peer next : Peer} {label : PeerLabel}
    (balanced : peer.Balanced)
    (stepped : peerStep peer label = some next) :
    next.Balanced := by
  cases label with
  | control letter faults =>
      simp only [peerStep] at stepped
      split at stepped <;> cases stepped
      exact handleControl_balanced balanced letter faults
  | command command faults =>
      simp only [peerStep] at stepped
      split at stepped <;> cases stepped
      exact
        balanced_of_tally balanced
          (handleCommand_tally peer command faults)
  | loopEnds reason =>
      simp only [peerStep] at stepped
      split at stepped <;> cases stepped
      apply balanced_of_tally balanced
      cases reason with
      | none => rfl
      | some text =>
          exact emit_tally { peer with mainEnded := true } (by simp)
  | send sendLabel =>
      exact balanced_of_tally balanced (sendStep_tally stepped)
  | recv recvLabel => exact recvStep_balanced balanced stepped

/-- In every run in which the re-reading of stored files works, a receive with
`checksum` whose sender does not opt out is acknowledged and reported as
completed only if the announced hash is that of the content it stored. -/
theorem completion_is_verified
    (files : Files) (labels : List PeerLabel)
    (watched : Peer × List Closed)
    (run :
      Run closingStep
        (fun watched label => rehashWorks watched.1 label = true)
        (Peer.initial files, []) labels watched) :
    (∀ receipt ∈ watched.1.receipts,
        receipt.verified.job.checksum = true →
          optsOut receipt.expectedHash = false →
            ∃ closed ∈ watched.2, receipt.Verified closed) ∧
      watched.1.Balanced := by
  have kept :
      watched.1.recvSide.Checked ∧
        watched.1.recvSide.Noted watched.2 ∧ watched.1.Balanced := by
    refine
      run.preserves
        (fun watched =>
          watched.1.recvSide.Checked ∧
            watched.1.recvSide.Noted watched.2 ∧ watched.1.Balanced)
        ?_ ⟨⟨nofun, nofun⟩, ⟨nofun, nofun⟩, ⟨rfl, rfl⟩⟩
    intro _ _ _ ⟨checked, noted, balanced⟩ works moved
    have stepped := (withHistory_eq_some.mp moved).1
    exact
      ⟨peerStep_checked checked works stepped,
        closingStep_noted noted works moved,
        peerStep_balanced balanced stepped⟩
  obtain ⟨checked, noted, balanced⟩ := kept
  refine ⟨?_, balanced⟩
  intro receipt member checksum expects
  obtain ⟨faithful, passed⟩ := checked.receipts receipt member
  obtain ⟨closed, isNoted, leads⟩ := noted.receipts receipt member
  exact
    ⟨closed, isNoted, leads.job, leads.target,
      ⟨_, leads.content checksum, faithful.hashed checksum⟩,
      announced_of_checked faithful passed checksum expects⟩

/-- The byte 7 is received as `a` with `checksum` and announced with the given
hash. -/
def checkedReceive (hash : String) : List PeerLabel :=
  [.command (.acceptFile "in" true false) .none,
    .control ⟨.metadata "a" 1 false true, 0⟩ .none,
    .recv .start,
    .recv (.openTarget .opened),
    .recv (.receive [7]),
    .recv .writeChunk,
    .recv .endReceive,
    .recv (.closeFile false false),
    .control ⟨.fileSent hash, 0⟩ .none,
    .recv (.verify false)]

def emptyFiles : Files := fun _ => none

/-- The sender may opt out, and then nothing is compared. -/
theorem completion_unverified_on_none :
    ¬ ∀ (files : Files) (labels : List PeerLabel)
        (watched : Peer × List Closed),
        replay closingStep (Peer.initial files, []) labels = some watched →
          ∀ receipt ∈ watched.1.receipts,
            receipt.verified.job.checksum = true →
              ∃ closed ∈ watched.2, receipt.Verified closed := by
  intro verified
  have reached :
      (replay closingStep (Peer.initial emptyFiles, [])
        (checkedReceive "NONE")).map
          (fun watched => watched.1.receipts.map fun receipt =>
            (receipt.verified.job.checksum, receipt.expectedHash)) =
        some [(true, "NONE")] := by
    decide +kernel
  obtain ⟨watched, ran, observed⟩ := Option.map_eq_some_iff.mp reached
  obtain ⟨receipt, rest, receipts, pair, _⟩ :=
    List.map_eq_cons_iff.mp observed
  obtain ⟨checksum, expects⟩ := Prod.mk.inj pair
  obtain ⟨closed, -, claimed⟩ :=
    verified emptyFiles _ watched ran receipt
      (by
        rw [receipts]
        exact List.mem_cons_self)
      checksum
  obtain ⟨content, -, hashed⟩ := claimed.computed
  have same := claimed.announced
  rw [hashed, expects] at same
  have lengths := congrArg List.length (beq_iff_eq.mp same)
  rw [List.length_map, List.length_map, length_sha256Hex] at lengths
  exact absurd lengths (by decide)

/-- The file is accepted with its hash in capital letters. -/
theorem completion_is_verified_capitals :
    ∃ watched : Peer × List Closed,
      watched.1.receipts.length = 1 ∧
        (∀ receipt ∈ watched.1.receipts,
          receipt.verified.job.checksum = true →
            optsOut receipt.expectedHash = false →
              ∃ closed ∈ watched.2, receipt.Verified closed) ∧
        watched.1.Balanced := by
  have reached :
      (guardedReplay closingStep
        (fun watched label => rehashWorks watched.1 label = true)
        (Peer.initial emptyFiles, [])
        (checkedReceive
          ("CA358758F6D27E6CF45272937977A748" ++
            "FD88391DB679CEDA7DC7BF1F005EE879"))).map
          (fun watched => watched.1.receipts.length) = some 1 := by
    decide +kernel
  obtain ⟨watched, ran, completed⟩ := Option.map_eq_some_iff.mp reached
  exact
    ⟨watched, completed,
      completion_is_verified emptyFiles _ watched
        (run_of_guardedReplay ran)⟩

end Quiczilla
