import Quiczilla.LivelyExchange

/-!
# An exchange ends with an outcome

A lively exchange is nowhere stuck: a letter can be handled or a task can go
on, or an application has still to make the offer, to answer it or to resume.
So an exchange that can go no further has told the sender its outcome.
-/

namespace Quiczilla

open Foundation

/-- The disk writer of the receive has gone. -/
def RecvPhase.lostWriter : RecvPhase → Bool
  | .receiving current => !current.writerAlive
  | _ => false

/-- The steps that wait for no application.  A read that fails is one of them
only if that is how the network loop learns that the disk writer has gone. -/
def Link.advances (link : Link) : LinkLabel → Bool
  | .leftControl _ => true
  | .rightControl _ => true
  | .leftSend .report => false
  | .leftSend label => !label.fails
  | .rightRecv .report => false
  | .rightRecv (.writeFails _) => false
  | .rightRecv .receiveFails => link.right.receiver.lostWriter
  | .rightRecv .hashClosed => false
  | .rightRecv _ => true
  | _ => false

/-! ## Some step can be taken -/

/-- A send that waits or is active can go on, unless it is held back. -/
theorem sendStep_enabled
    {exchange : Exchange} {source : List UInt8} {peer : Peer}
    (hashes : peer.Hashes exchange source)
    (isSource :
      peer.files (components exchange.offer.path) = some (.file source))
    (reads : peer.ReadsOn) (runs : peer.paused = false)
    (busy : peer.sendQueue ≠ [] ∨ peer.sender ≠ .idle) :
    ∃ label, label ≠ .report ∧ label.fails = false ∧
      peer.sendStep label ≠ none := by
  have notHeld : peer.isHeld = false := by
    rw [Peer.isHeld, runs]
    rfl
  cases phase : peer.sender with
  | idle =>
      obtain queued | active := busy
      · obtain ⟨job, rest, isQueue⟩ := List.exists_cons_of_ne_nil queued
        refine ⟨.start, by rintro ⟨⟩, rfl, ?_⟩
        simp [Peer.sendStep, phase, isQueue]
      · exact absurd phase active
  | opening job =>
      refine ⟨.openSource (.opened false), by rintro ⟨⟩, rfl, ?_⟩
      have measured :
          peer.files.length? (components job.path) =
            some source.length := by
        rw [(hashes.opening job phase).path]
        exact FileStore.length?_of_file isSource
      simp [Peer.sendStep, phase, Peer.openSource, measured]
  | streaming stream =>
      have isContent :=
        sourceContent_of_file (hashes.streaming stream phase).sends isSource
      cases isTaken : stream.taken with
      | some chunk =>
          refine ⟨.writeChunk, by rintro ⟨⟩, rfl, ?_⟩
          simp only [Peer.sendStep, phase, Peer.writeChunk, isTaken, notHeld]
          by_cases cancelled : peer.cancelled = true <;> simp [cancelled]
      | none =>
          cases isQueue : stream.chunks with
          | cons chunk rest =>
              refine ⟨.takeChunk, by rintro ⟨⟩, rfl, ?_⟩
              simp [Peer.sendStep, phase, isTaken, isQueue]
          | nil =>
              cases reader : stream.reader with
              | failed => exact absurd reader (reads stream phase)
              | finished hash =>
                  refine ⟨.finish false, by rintro ⟨⟩, rfl, ?_⟩
                  simp [Peer.sendStep, phase, Peer.finishSending, isTaken,
                    isQueue, reader]
              | reading =>
                  by_cases more : stream.position < source.length
                  · refine
                      ⟨.readChunk
                        (min (source.length - stream.position)
                          fileChunkSize), by rintro ⟨⟩, rfl, ?_⟩
                    have positive : 0 < fileChunkSize := by decide
                    have room : 0 < chunkChannelCapacity := by decide
                    simp only [Peer.sendStep, phase, Peer.readChunk,
                      Peer.sourceContent, isContent, isQueue, reader,
                      Option.getD_some, List.length_take, List.length_drop,
                      List.length_nil]
                    rw [if_pos
                      ⟨trivial, by omega, by omega, by omega, room⟩]
                    rintro ⟨⟩
                  · refine ⟨.readEnd, by rintro ⟨⟩, rfl, ?_⟩
                    simp [Peer.sendStep, phase, Peer.readEnd, isContent,
                      reader, Nat.le_of_not_lt more]

/-- A receive that waits or is active can go on, unless it is held back or
lacks the bytes or the hash that it waits for. -/
theorem recvStep_enabled
    {link : Link} (runs : link.right.paused = false)
    (unstopped : link.right.receiver ≠ .stopped)
    (busy :
      link.right.recvQueue ≠ [] ∨ link.right.receiver.job? ≠ none)
    (bytes :
      ∀ current, link.right.receiver = .receiving current →
        current.totalReceived < current.job.fileSize →
          link.left.fileOut ≠ [])
    (hashes : link.right.hashQueue ≠ []) :
    ∃ label, link.advances (.rightRecv label) = true ∧
      linkStep link (.rightRecv label) ≠ none := by
  have moves {label : RecvLabel}
      (notReceive : ∀ chunk, label ≠ .receive chunk)
      (enabled : link.right.recvStep label ≠ none) :
      linkStep link (.rightRecv label) ≠ none := by
    obtain ⟨right, taken⟩ := Option.ne_none_iff_exists'.mp enabled
    cases label with
    | receive chunk => exact absurd rfl (notReceive chunk)
    | _ =>
        simp only [linkStep, Link.moveReceive, Link.moveRight, peerStep,
          taken]
        rintro ⟨⟩
  have notHeld : link.right.isHeld = false := by
    rw [Peer.isHeld, runs]
    rfl
  cases phase : link.right.receiver with
  | idle =>
      obtain queued | active := busy
      · obtain ⟨job, rest, isQueue⟩ := List.exists_cons_of_ne_nil queued
        refine ⟨.start, rfl, moves (by rintro _ ⟨⟩) ?_⟩
        simp [Peer.recvStep, phase, isQueue]
      · rw [phase] at active
        exact absurd rfl active
  | opening job =>
      refine ⟨.openTarget .parentFailed, rfl, moves (by rintro _ ⟨⟩) ?_⟩
      simp [Peer.recvStep, phase, Peer.openTarget]
  | receiving current =>
      cases isEnd : current.loopEnd with
      | some success =>
          by_cases alive : current.writerAlive = true
          · cases isQueue : current.chunks with
            | cons chunk rest =>
                refine ⟨.writeChunk, rfl, moves (by rintro _ ⟨⟩) ?_⟩
                simp [Peer.recvStep, phase, Peer.storeChunk, alive, isQueue]
            | nil =>
                refine ⟨.closeFile false false, rfl, moves (by rintro _ ⟨⟩) ?_⟩
                simp only [Peer.recvStep, phase, Peer.closeFile, isEnd,
                  alive, isQueue]
                cases success <;> simp
          · refine ⟨.closeFile false false, rfl, moves (by rintro _ ⟨⟩) ?_⟩
            simp [Peer.recvStep, phase, Peer.closeFile, isEnd, alive]
      | none =>
          by_cases missing : current.totalReceived < current.job.fileSize
          · by_cases alive : current.writerAlive = true
            · cases isQueue : current.chunks with
              | cons chunk rest =>
                  refine ⟨.writeChunk, rfl, moves (by rintro _ ⟨⟩) ?_⟩
                  simp [Peer.recvStep, phase, Peer.storeChunk, alive,
                    isQueue]
              | nil =>
                  obtain ⟨first, others, isOut⟩ :=
                    List.exists_cons_of_ne_nil (bytes current phase missing)
                  refine ⟨.receive [first], rfl, ?_⟩
                  have fits :
                      1 ≤ min
                        (current.job.fileSize - current.totalReceived)
                        fileChunkSize := by
                    have positive : 0 < fileChunkSize := by decide
                    omega
                  have room : 0 < chunkChannelCapacity := by decide
                  simp [linkStep, Link.moveReceive, Link.moveRight,
                    peerStep, Peer.recvStep, phase, Peer.receive, isEnd,
                    missing, notHeld, alive, isQueue, isOut, room]
                  omega
            · refine ⟨.receiveFails, ?_, moves (by rintro _ ⟨⟩) ?_⟩
              · simp [Link.advances, RecvPhase.lostWriter, phase, alive]
              · simp [Peer.recvStep, phase, Peer.receiveFails, isEnd,
                  missing]
          · refine ⟨.endReceive, rfl, moves (by rintro _ ⟨⟩) ?_⟩
            simp [Peer.recvStep, phase, Peer.endReceive, isEnd,
              Nat.le_of_not_lt missing]
  | verifying verifying =>
      obtain ⟨hash, rest, isQueue⟩ := List.exists_cons_of_ne_nil hashes
      refine ⟨.verify false, rfl, moves (by rintro _ ⟨⟩) ?_⟩
      simp only [Peer.recvStep, phase, Peer.verify, isQueue]
      split
      · split <;> rintro ⟨⟩
      · rintro ⟨⟩
  | stopped => exact absurd phase unstopped

/-! ## Runs -/

/-- What the sender still owes is on the stream once it has nothing left to
do. -/
theorem Link.Bound.bytesLeft
    {link : Link} (bound : link.Bound) {current : Receiving}
    (unsent : link.left.unsent = [])
    (idle : link.left.sender = .idle) (noJobs : link.left.sendQueue = [])
    (noNotices : link.left.notices = [])
    (noAnswers : link.right.answers = [])
    (active : link.right.receiver = .receiving current)
    (missing : current.totalReceived < current.job.fileSize) :
    link.left.fileOut ≠ [] := by
  have isGenuine : current.job.Genuine link.left := by
    have holds := bound.jobs.active
    change link.right.receiver.Holds _ at holds
    rw [active] at holds
    exact holds.1
  have awaits :
      (link.left.promised current.job.offer).drop current.totalReceived ≠
        [] := by
    have size := isGenuine.size
    rw [Ne, List.drop_eq_nil_iff]
    omega
  obtain stopped | flow := bound.flow
  · rw [active] at stopped
    cases stopped
  · have notConfirmed : link.confirmed = [] := by
      apply confirmed_of_notices
      rw [noNotices]
      rintro ⟨⟩
    intro isEmpty
    rw [Peer.owed, isEmpty, unsent, idle, noJobs, noAnswers,
      Peer.awaited, active, notConfirmed] at flow
    simp only [SendPhase.owed, RecvPhase.awaited, List.append_nil,
      List.flatMap_nil] at flow
    exact awaits (List.append_eq_nil_iff.mp flow.symm).1

/-- Where everything can still be brought to its end, the offer has been
answered and nobody is paused, some step can be taken. -/
theorem Link.Lively.advances
    {exchange : Exchange} {leftFiles rightFiles : Files}
    {source : List UInt8} {link : Link} (lively : link.Lively)
    (isOpen : link.IsOpen)
    (runs : exchange.Runs leftFiles rightFiles source.length link)
    (isSource :
      leftFiles (components exchange.offer.path) = some (.file source))
    (hashes : link.left.Hashes exchange source)
    (announced : link.left.coordinator.announced ≠ [])
    (answered : link.right.held = none)
    (leftRuns : link.left.paused = false)
    (rightRuns : link.right.paused = false) :
    ∃ label, link.advances label = true ∧ linkStep link label ≠ none := by
  cases leftOut : link.left.outbox with
  | cons letter rest =>
      refine ⟨.rightControl .none, rfl, ?_⟩
      simp [linkStep, leftOut, Link.moveRight, peerStep, isOpen.2]
  | nil =>
  cases rightOut : link.right.outbox with
  | cons letter rest =>
      refine ⟨.leftControl .none, rfl, ?_⟩
      simp [linkStep, rightOut, Link.moveLeft, peerStep, isOpen.1]
  | nil =>
  have noNotices : link.left.notices = [] := by
    rw [Peer.notices, leftOut]
    rfl
  have noFinals : link.left.finals = [] := by
    rw [Peer.finals, leftOut]
    rfl
  have noAnswers : link.right.answers = [] := by
    rw [Peer.answers, rightOut]
    rfl
  have isLeft :
      link.left.files (components exchange.offer.path) =
        some (.file source) := by
    rw [runs.underway.sources]
    exact isSource
  by_cases busy :
      link.left.sendQueue ≠ [] ∨ link.left.sender ≠ .idle
  · obtain ⟨label, notReport, works, enabled⟩ :=
      sendStep_enabled hashes isLeft lively.reads leftRuns busy
    refine ⟨.leftSend label, ?_, ?_⟩
    · cases label with
      | report => exact absurd rfl notReport
      | _ =>
          simp only [Link.advances, works]
          rfl
    · obtain ⟨left, taken⟩ := Option.ne_none_iff_exists'.mp enabled
      simp only [linkStep, Link.moveLeft, peerStep, taken]
      rintro ⟨⟩
  · obtain ⟨noJobs, idle⟩ := not_or.mp busy
    rw [Ne, not_not] at noJobs idle
    have started : link.left.Started := by
      refine ⟨announced, ?_⟩
      by_contra isAsked
      obtain isAnswered | isHeld | ⟨notice, member, -⟩ :=
        lively.speaks isAsked
      · exact isAnswered noAnswers
      · exact isHeld answered
      · rw [noNotices] at member
        cases member
    have hashed : link.right.hashQueue ≠ [] := by
      obtain queued | active | told | waits := lively.gives started
      · exact absurd noJobs queued
      · exact absurd idle active
      · exact absurd noFinals told
      · exact waits
    have active :
        link.right.recvQueue ≠ [] ∨ link.right.receiver.job? ≠ none := by
      obtain queued | active | confirmed := lively.takes (Or.inl started)
      · exact Or.inl queued
      · exact Or.inr active
      · rw [noNotices] at confirmed
        cases confirmed
    obtain ⟨label, advances, enabled⟩ :=
      recvStep_enabled rightRuns lively.unstopped active
        (fun current isActive missing =>
          runs.underway.bound.bytesLeft lively.unsent idle noJobs noNotices
            noAnswers isActive missing)
        hashed
    exact ⟨.rightRecv label, advances, enabled⟩

/-- Where no letter is under way and no job is left, nothing goes on. -/
theorem stopped_of_idle
    {link : Link} (leftOut : link.left.outbox = [])
    (rightOut : link.right.outbox = []) (noJobs : link.left.sendQueue = [])
    (leftIdle : link.left.sender = .idle)
    (noReceives : link.right.recvQueue = [])
    (rightIdle : link.right.receiver = .idle) :
    ∀ label, link.advances label = true → linkStep link label = none := by
  intro label advances
  cases label with
  | leftControl faults => simp only [linkStep, rightOut]
  | rightControl faults => simp only [linkStep, leftOut]
  | leftSend label =>
      cases label <;>
        simp [linkStep, Link.moveLeft, peerStep, Peer.sendStep, leftIdle,
          noJobs]
  | rightRecv label =>
      cases label <;>
        simp [linkStep, Link.moveReceive, Link.moveRight, peerStep,
          Peer.recvStep, rightIdle, noReceives]
  | _ => cases advances

/-- What an undisturbed exchange keeps. -/
structure Exchange.Proceeds
    (exchange : Exchange) (leftFiles rightFiles : Files)
    (source : List UInt8) (link : Link) : Prop where
  runs : exchange.Runs leftFiles rightFiles source.length link
  hashes : link.left.Hashes exchange source
  isOpen : link.IsOpen
  live : link.Decided ∨ link.Lively

namespace Exchange.Proceeds

variable {exchange : Exchange} {leftFiles rightFiles : Files}
  {source : List UInt8} {link next : Link}

theorem initial
    (exchange : Exchange) (leftFiles rightFiles : Files)
    (source : List UInt8) :
    exchange.Proceeds leftFiles rightFiles source
      (.initial leftFiles rightFiles) where
  runs := Exchange.Runs.initial exchange leftFiles rightFiles source.length
  hashes := hashes_initial exchange source leftFiles
  isOpen := ⟨rfl, rfl⟩
  live := Or.inr (lively_initial leftFiles rightFiles)

theorem step
    {label : LinkLabel}
    (proceeds : exchange.Proceeds leftFiles rightFiles source link)
    (isSource :
      leftFiles (components exchange.offer.path) = some (.file source))
    (undisturbed : exchange.Undisturbed link label)
    (stepped : linkStep link label = some next) :
    exchange.Proceeds leftFiles rightFiles source next where
  runs := proceeds.runs.step isSource undisturbed.1 stepped
  hashes := proceeds.runs.underway.hashes_step isSource proceeds.hashes stepped
  isOpen := proceeds.isOpen.step undisturbed.2 stepped
  live := by
    have underway := proceeds.runs.underway
    obtain decided | lively := proceeds.live
    · exact Or.inl (decided.step underway.informed stepped)
    · exact
        lively.step proceeds.isOpen underway undisturbed.2 stepped

/-- Where nothing can go on, the sender has been told the outcome. -/
theorem outcome
    (proceeds : exchange.Proceeds leftFiles rightFiles source link)
    (isSource :
      leftFiles (components exchange.offer.path) = some (.file source))
    (announced : link.left.coordinator.announced ≠ [])
    (answered : link.right.held = none)
    (leftRuns : link.left.paused = false)
    (rightRuns : link.right.paused = false)
    (stopped :
      ∀ label, link.advances label = true → linkStep link label = none) :
    ∃ status, status ∈ link.left.reports := by
  have isOpen := proceeds.isOpen
  obtain told | ⟨message, member, reports⟩ | lively :=
    or_assoc.mp proceeds.live
  · exact List.exists_mem_of_ne_nil _ told
  · -- The message that tells the outcome could be taken.
    obtain ⟨letter, arrives, -⟩ :=
      List.mem_map.mp (List.mem_of_mem_filter member)
    obtain ⟨first, rest, isOut⟩ :=
      List.exists_cons_of_ne_nil (List.ne_nil_of_mem arrives)
    have isStuck := stopped (.leftControl .none) rfl
    simp [linkStep, isOut, Link.moveLeft, peerStep, isOpen.1] at isStuck
  · obtain ⟨label, advances, enabled⟩ :=
      lively.advances isOpen proceeds.runs isSource proceeds.hashes
        announced answered leftRuns rightRuns
    exact absurd (stopped label advances) enabled

end Exchange.Proceeds

/-- While both loops run and the sender can read and send its file, an exchange
whose offer has been answered and that nobody has paused can only stop once the
sender has been told the outcome. -/
theorem exchange_ends_with_outcome
    {exchange : Exchange} {leftFiles rightFiles : Files}
    {source : List UInt8} {labels : List LinkLabel} {link : Link}
    (isSource :
      leftFiles (components exchange.offer.path) = some (.file source))
    (run :
      Run linkStep exchange.Undisturbed (.initial leftFiles rightFiles)
        labels link)
    (announced : link.left.coordinator.announced ≠ [])
    (answered : link.right.held = none)
    (leftRuns : link.left.paused = false)
    (rightRuns : link.right.paused = false)
    (stopped :
      ∀ label, link.advances label = true → linkStep link label = none) :
    ∃ status, .transferComplete status ∈ link.left.events := by
  have proceeds :
      exchange.Proceeds leftFiles rightFiles source link := by
    refine
      run.preserves (exchange.Proceeds leftFiles rightFiles source) ?_
        (Exchange.Proceeds.initial exchange leftFiles rightFiles source)
    intro link label next proceeds undisturbed stepped
    exact proceeds.step isSource undisturbed stepped
  obtain ⟨status, reported⟩ :=
    proceeds.outcome isSource announced answered leftRuns rightRuns stopped
  exact ⟨status, mem_reports.mp reported⟩

theorem exchange_ends_with_outcome_one_byte :
    ∃ link : Link,
      Run linkStep
          (Exchange.Undisturbed ⟨⟨"a", true, true⟩, ⟨"in", true, true⟩⟩)
          (.initial twoSources fun _ => none) oneByteExchange link ∧
        ∃ status, .transferComplete status ∈ link.left.events := by
  have ran :
      (guardedReplay linkStep
          (Exchange.Admits ⟨⟨"a", true, true⟩, ⟨"in", true, true⟩⟩)
          (.initial twoSources fun _ => none) oneByteExchange).map
          (fun link =>
            decide
              ((link.left.coordinator.announced ≠ [] ∧
                  link.right.held = none) ∧
                (link.left.paused = false ∧ link.right.paused = false) ∧
                  (link.left.outbox = [] ∧ link.right.outbox = []) ∧
                    (link.left.sendQueue = [] ∧
                        link.left.sender = .idle) ∧
                      link.right.recvQueue = [] ∧
                        link.right.receiver = .idle)) =
        some true := by
    decide +kernel
  obtain ⟨link, reached, isDone⟩ := Option.map_eq_some_iff.mp ran
  obtain
    ⟨⟨announced, answered⟩, ⟨leftRuns, rightRuns⟩, ⟨leftOut, rightOut⟩,
      ⟨noJobs, leftIdle⟩, noReceives, rightIdle⟩ :=
    of_decide_eq_true isDone
  have run :
      Run linkStep
        (Exchange.Undisturbed ⟨⟨"a", true, true⟩, ⟨"in", true, true⟩⟩)
        (.initial twoSources fun _ => none) oneByteExchange link :=
    (run_of_guardedReplay reached).of_labels (by decide)
  exact
    ⟨link, run,
      @exchange_ends_with_outcome
        ⟨⟨"a", true, true⟩, ⟨"in", true, true⟩⟩ _ _ [1] _ _ (if_pos rfl)
        run announced answered leftRuns rightRuns
        (stopped_of_idle leftOut rightOut noJobs leftIdle noReceives
          rightIdle)⟩

end Quiczilla
