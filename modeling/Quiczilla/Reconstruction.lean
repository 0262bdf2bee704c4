import Quiczilla.ExchangePhases

/-!
# What a completed exchange leaves behind

If the sending side reports an exchange as completed, the destination holds
the source, or what was kept followed by the rest of the source, and the bytes
on the stream are the source from the agreed offset on, all of them taken.
-/

namespace Quiczilla

open Foundation

/-! ## Runs of one exchange -/

/-- The exchange is under way, before or behind its accept. -/
structure Exchange.Runs
    (exchange : Exchange) (leftFiles rightFiles : Files) (size : Nat)
    (link : Link) : Prop where
  underway : exchange.Underway leftFiles link
  phase :
    link.Unaccepted rightFiles ∨ exchange.Accepted rightFiles size link

namespace Exchange.Runs

variable {exchange : Exchange} {leftFiles rightFiles : Files}
  {source : List UInt8} {link next : Link}

theorem initial
    (exchange : Exchange) (leftFiles rightFiles : Files) (size : Nat) :
    exchange.Runs leftFiles rightFiles size
      (.initial leftFiles rightFiles) where
  underway := Exchange.Underway.initial exchange leftFiles rightFiles
  phase := Or.inl (unaccepted_initial leftFiles rightFiles)

/-- Before the accept the receive task has nothing to do. -/
theorem task_waits
    {label : RecvLabel} {right : Peer}
    (unaccepted : link.Unaccepted rightFiles)
    (stepped : link.right.recvStep label = some right) : False := by
  have noneQueued := unaccepted.noneWaits.2
  unfold Peer.recvStep at stepped
  rw [unaccepted.idle, noneQueued] at stepped
  cases label <;> cases stepped

/-- The loop of the sending side takes a step. -/
theorem leftLoop
    {label : PeerLabel} {left : Peer} {outbox : List Letter}
    {answer : Option Answer} {faults : Faults}
    (runs : exchange.Runs leftFiles rightFiles source.length link)
    (noAccept :
      ∀ command faults, label = .command command faults →
        command.sends = true)
    (isLoop : label.isLoop = true)
    (admitted :
      ∀ (pending : PendingSend) faults,
        label =
            .command
              (.sendFile pending.path pending.checksum pending.resume)
              faults →
          link.left.coordinator.announced = [])
    (taken : peerStep link.left label = some left)
    (effect : OfferingEffect link.left answer faults left.offering)
    (readied :
      Link.Readied ⟨left, link.right.withOutbox outbox⟩ → link.Readied) :
    Link.Unaccepted rightFiles ⟨left, link.right.withOutbox outbox⟩ ∨
      exchange.Accepted rightFiles source.length
        ⟨left, link.right.withOutbox outbox⟩ := by
  have tasks := loopStep_taskSide isLoop taken
  have stream :
      ∃ bytes, left.fileOut = link.left.fileOut ++ bytes ∧
        left.fileSent = link.left.fileSent ++ bytes := by
    refine ⟨[], ?_, ?_⟩
    · rw [List.append_nil]
      exact congrArg TaskSide.fileOut tasks
    · rw [List.append_nil]
      exact congrArg TaskSide.fileSent tasks
  obtain unaccepted | accepted := runs.phase
  · exact Or.inl (unaccepted.sending readied stream)
  · have announced :
        left.coordinator.announced = link.left.coordinator.announced := by
      obtain same | ⟨pending, others, isCommand, -, -⟩ :=
        loopStep_announced runs.underway.bound.roles.sends noAccept isLoop
          taken
      · exact same
      · exact absurd (admitted pending others isCommand) accepted.offered
    exact
      Or.inr
        (accepted.sending readied announced
          (offeringEffect_replies announced effect) stream)

/-- The loop of the receiving side takes a step. -/
theorem rightLoop
    {label : PeerLabel} {right : Peer} {outbox : List Letter}
    (runs : exchange.Runs leftFiles rightFiles source.length link)
    (isSource :
      leftFiles (components exchange.offer.path) = some (.file source))
    (isLoop : label.isLoop = true)
    (arrives :
      ∀ letter faults, label = .control letter faults →
        letter ∈ link.left.outbox)
    (admitted :
      ∀ accept faults,
        label =
            .command
              (.acceptFile accept.saveDir accept.checksum accept.resume)
              faults →
          exchange.accept = accept)
    (cuts :
      ∀ applied, link.right.applied label = some applied →
        label.faults.truncate = false)
    (notices :
      link.left.notices =
        label.notice?.toList ++ (link.left.withOutbox outbox).notices)
    (taken : peerStep link.right label = some right)
    (effect : AnsweringEffect link.right label.notice? label.faults right)
    (after :
      exchange.Underway leftFiles ⟨link.left.withOutbox outbox, right⟩) :
    Link.Unaccepted rightFiles ⟨link.left.withOutbox outbox, right⟩ ∨
      exchange.Accepted rightFiles source.length
        ⟨link.left.withOutbox outbox, right⟩ := by
  have bound := runs.underway.bound
  obtain unaccepted | accepted := runs.phase
  · cases isApplied : link.right.applied label with
    | none =>
        exact
          Or.inl
            (unaccepted.receiving bound isLoop notices isApplied taken
              effect)
    | some applied =>
        have isOffer :=
          runs.underway.applied isSource arrives admitted isApplied
        have isCut := cuts applied isApplied
        rw [isOffer] at isApplied
        exact
          Or.inr
            (unaccepted.accepting isLoop isApplied isCut taken effect after)
  · exact
      Or.inr (accepted.receiving bound isLoop notices taken effect)

theorem step
    {label : LinkLabel}
    (runs : exchange.Runs leftFiles rightFiles source.length link)
    (isSource :
      leftFiles (components exchange.offer.path) = some (.file source))
    (admitted : exchange.Admits link label)
    (stepped : linkStep link label = some next) :
    exchange.Runs leftFiles rightFiles source.length next := by
  have after := runs.underway.step (Exchange.asks_of_admits admitted) stepped
  refine ⟨after, ?_⟩
  have readied {left : Peer}
      (handled : left.handled = link.left.handled)
      (isReady : Link.Readied ⟨left, link.right⟩) : link.Readied := by
    obtain isHandled | isAnswer := isReady
    · change .ready ∈ left.handled at isHandled
      rw [handled] at isHandled
      exact Or.inl isHandled
    · exact Or.inr isAnswer
  cases linkStep_effect stepped with
  | leftCommand command faults left isSend taken =>
      have effect := commandStep_offering isSend taken
      refine
        @leftLoop _ _ _ _ _ _ _ link.right.outbox _ _ runs
          (fun other _ isOther => by
            cases isOther
            exact isSend) rfl ?_ taken effect
          (readied
            ((loopStep_handled rfl taken).trans (List.append_nil _)))
      intro pending others isCommand
      cases isCommand
      exact admitted.2
  | leftControl faults letter rest left arrived taken =>
      have effect := controlStep_offering runs.underway.bound.roles.sends taken
      exact
        runs.leftLoop (fun _ _ isCommand => by cases isCommand) rfl
          (fun _ _ isCommand => by cases isCommand) taken effect
          (readied_of_control arrived taken)
  | leftEnds reason left taken =>
      have effect := endStep_offering .none taken
      exact
        @leftLoop _ _ _ _ _ _ _ link.right.outbox _ _ runs
          (fun _ _ isCommand => by cases isCommand) rfl
          (fun _ _ isCommand => by cases isCommand) taken effect
          (readied
            ((loopStep_handled rfl taken).trans (List.append_nil _)))
  | leftSend label left taken =>
      have sameCoordinator := (sendStep_files taken).2
      have sameNotices : left.notices = link.left.notices :=
        congrArg Offering.notices (sendStep_offering taken)
      have isReadied := @readied left (sendStep_handled taken)
      obtain unaccepted | accepted := runs.phase
      · exact
          Or.inl
            (@Link.Unaccepted.sending _ _ _ link.right.outbox unaccepted
              isReadied (sendStep_put taken))
      · refine
          Or.inr
            (@Exchange.Accepted.sending _ _ _ _ _ link.right.outbox accepted
              isReadied ?_ ?_ (sendStep_put taken))
        · rw [sameCoordinator]
        · intro notice member
          rw [sameNotices] at member
          exact Or.inl member
  | rightCommand command faults right receives taken =>
      have effect := commandStep_answering receives taken
      refine
        @rightLoop _ _ _ _ _ _ _ link.left.outbox runs isSource rfl
          (fun _ _ isControl => by cases isControl) ?_ ?_ rfl taken effect
          after
      · intro accept others isCommand
        cases isCommand
        exact admitted.1
      · intro applied isApplied
        cases command with
        | acceptFile saveDir checksum resume => exact admitted.2
        | _ => cases isApplied
  | rightControl faults letter rest right arrived taken =>
      have effect :=
        controlStep_answering runs.underway.bound.roles.receives taken
      refine
        @rightLoop _ _ _ _ _ (.control letter faults) _ rest runs isSource
          rfl ?_ (fun _ _ isCommand => by cases isCommand)
          (fun _ _ => admitted) (notices_of_outbox arrived) taken effect
          after
      intro other others isOther
      cases isOther
      rw [arrived]
      exact List.mem_cons_self
  | rightEnds reason right taken =>
      have effect := endStep_answering .none taken
      exact
        @rightLoop _ _ _ _ _ _ _ link.left.outbox runs isSource rfl
          (fun _ _ isControl => by cases isControl)
          (fun _ _ isCommand => by cases isCommand) (fun _ _ => rfl) rfl
          taken effect after
  | received chunk rest right isFront taken =>
      obtain unaccepted | accepted := runs.phase
      · exact (task_waits unaccepted taken).elim
      · exact
          Or.inr (accepted.task taken (Or.inr ⟨chunk, rfl, isFront⟩))
  | rightRecv label right notReceive taken =>
      obtain unaccepted | accepted := runs.phase
      · exact (task_waits unaccepted taken).elim
      · exact
          Or.inr
            (@Exchange.Accepted.task _ _ _ _ _ _ link.left.fileOut accepted
              taken (Or.inl ⟨notReceive, rfl⟩))

theorem run
    {labels : List LinkLabel}
    (isSource :
      leftFiles (components exchange.offer.path) = some (.file source))
    (run :
      Run linkStep exchange.Admits (.initial leftFiles rightFiles) labels
        link) :
    exchange.Runs leftFiles rightFiles source.length link :=
  run.preserves (exchange.Runs leftFiles rightFiles source.length)
    (fun _ _ _ runs admitted stepped => runs.step isSource admitted stepped)
    (initial exchange leftFiles rightFiles source.length)

end Exchange.Runs

/-! ## The report of the sending side -/

/-- The receiving side has reported no completion without a receipt. -/
def Peer.Acknowledges (peer : Peer) : Prop :=
  .completed ∈ peer.reports → peer.receipts ≠ []

theorem recvStep_acknowledges
    {peer next : Peer} {label : RecvLabel}
    (acknowledges : peer.Acknowledges)
    (stepped : peer.recvStep label = some next) : next.Acknowledges := by
  have stays {others : Peer} (receipts : others.receipts = peer.receipts)
      (reports :
        .completed ∈ others.reports → .completed ∈ peer.reports) :
      others.Acknowledges := by
    intro isCompleted
    rw [receipts]
    exact acknowledges (reports isCompleted)
  have completes {others : Peer} {receipt : Receipt}
      (receipts : others.receipts = peer.receipts ++ [receipt]) :
      others.Acknowledges := by
    intro _ isEmpty
    rw [receipts] at isEmpty
    simp at isEmpty
  have fails (before : Peer) {status : FileTransferStatus}
      (other : status ≠ .completed)
      (same : before.reports = peer.reports) :
      .completed ∈ (before.failReceive status).reports →
        .completed ∈ peer.reports := by
    have reports :
        (before.failReceive status).reports = before.reports ++ [status] :=
      congrArg FinalSide.reports (failReceive_finalSide before status)
    rw [reports, same]
    intro member
    obtain earlier | last := List.mem_append.mp member
    · exact earlier
    · exact absurd (List.mem_singleton.mp last).symm other
  cases recvStep_effect stepped with
  | refused job files =>
      exact
        stays rfl (fails { peer with files := files } (by decide) rfl)
  | seekFailed job files opened =>
      exact
        stays rfl
          (fails (peer.touch [job.targetWritePath] opened) (by decide) rfl)
  | reported current =>
      refine stays rfl ?_
      rw [Peer.reports, Peer.emit, List.filterMap_append]
      simp [PeerEvent.report?, Peer.reports]
  | gaveUp current => exact stays rfl (fails peer (by decide) rfl)
  | rejected current rest =>
      refine
        stays rfl (fails (peer.progressed current rest) (by decide) ?_)
      exact congrArg FinalSide.reports (progressed_finalSide peer current rest)
  | completed current expectedHash rest => exact completes rfl
  | committed current expectedHash rest renamed => exact completes rfl
  | _ => exact stays rfl fun isCompleted => isCompleted

/-- The sending side reports a completion behind the receiving side only, which
has a receipt for it. -/
structure Link.Acknowledged (link : Link) : Prop where
  receipts : link.right.Acknowledges
  reports :
    .completed ∈ link.verdicts → .completed ∈ link.right.reports

theorem acknowledged_initial (leftFiles rightFiles : Files) :
    (Link.initial leftFiles rightFiles).Acknowledged where
  receipts isCompleted := by cases isCompleted
  reports isCompleted := by cases isCompleted

theorem reports_of_ends
    {link next : Link} {label : LinkLabel}
    (reports :
      .completed ∈ link.verdicts → .completed ∈ link.right.reports)
    (effect : EndsEffect link label next) :
    .completed ∈ next.verdicts → .completed ∈ next.right.reports := by
  have added {verdict report : FileTransferStatus}
      (isNext : next.ends = link.ends.add verdict report)
      (agree : verdict = .completed → report = .completed) :
      .completed ∈ next.verdicts → .completed ∈ next.right.reports := by
    have verdicts : next.verdicts = link.verdicts ++ [verdict] :=
      congrArg Ends.verdicts isNext
    have isReports : next.right.reports = link.right.reports ++ [report] :=
      congrArg Ends.reports isNext
    rw [verdicts, isReports]
    intro member
    obtain earlier | last := List.mem_append.mp member
    · exact List.mem_append_left _ (reports earlier)
    · rw [agree (List.mem_singleton.mp last).symm]
      exact List.mem_append_right _ List.mem_cons_self
  cases effect with
  | silent _ _ _ same =>
      have verdicts : next.verdicts = link.verdicts :=
        congrArg Ends.verdicts same
      have isReports : next.right.reports = link.right.reports :=
        congrArg Ends.reports same
      rw [verdicts, isReports]
      exact reports
  | judged comparison _ _ _ _ _ isNext => exact added isNext id
  | uncommitted comparison _ _ _ _ _ isNext => exact added isNext nofun
  | gaveUp _ _ _ _ isNext => exact added isNext nofun

theorem linkStep_acknowledged
    {link next : Link} {label : LinkLabel} (informed : link.Informed)
    (acknowledged : link.Acknowledged)
    (stepped : linkStep link label = some next) : next.Acknowledged := by
  refine
    ⟨?_,
      reports_of_ends acknowledged.reports (linkStep_ends informed stepped)⟩
  -- The loop reports what the other side tells about the end.
  have loops {peerLabel : PeerLabel} {right : Peer}
      (isLoop : peerLabel.isLoop = true)
      (silent :
        (link.right.finalSide.after peerLabel).reports =
          link.right.reports)
      (taken : peerStep link.right peerLabel = some right) :
      right.Acknowledges := by
    obtain ⟨side, -, -⟩ := loopStep_finalSide isLoop taken
    have reports : right.reports = link.right.reports :=
      (congrArg FinalSide.reports side).trans silent
    have receipts : right.receipts = link.right.receipts :=
      congrArg TaskSide.receipts (loopStep_taskSide isLoop taken)
    rw [Peer.Acknowledges, reports, receipts]
    exact acknowledged.receipts
  cases linkStep_effect stepped with
  | leftCommand command faults left sends taken =>
      exact acknowledged.receipts
  | leftControl faults letter rest left arrived taken =>
      exact acknowledged.receipts
  | leftEnds reason left taken => exact acknowledged.receipts
  | leftSend label left taken => exact acknowledged.receipts
  | rightCommand command faults right receives taken =>
      refine loops rfl ?_ taken
      cases command <;> rfl
  | rightControl faults letter rest right arrived taken =>
      obtain ⟨noReport, -, -⟩ := informed.arrives arrived
      refine loops rfl ?_ taken
      simp only [FinalSide.after, noReport, Option.toList_none,
        List.append_nil]
      rfl
  | rightEnds reason right taken => exact loops rfl rfl taken
  | received chunk rest right isFront taken =>
      exact recvStep_acknowledges acknowledged.receipts taken
  | rightRecv label right notReceive taken =>
      exact recvStep_acknowledges acknowledged.receipts taken

/-- Where the sending side reports a completion there is a receipt. -/
theorem receipts_of_completed
    {exchange : Exchange} {leftFiles rightFiles : Files}
    {source : List UInt8} {labels : List LinkLabel} {link : Link}
    (isSource :
      leftFiles (components exchange.offer.path) = some (.file source))
    (run :
      Run linkStep exchange.Admits (.initial leftFiles rightFiles) labels
        link)
    (completed : .transferComplete .completed ∈ link.left.events) :
    link.right.receipts ≠ [] := by
  obtain ⟨-, acknowledged⟩ :
      exchange.Runs leftFiles rightFiles source.length link ∧
        link.Acknowledged :=
    run.preserves
      (fun link =>
        exchange.Runs leftFiles rightFiles source.length link ∧
          link.Acknowledged)
      (fun _ _ _ holds admitted stepped =>
        ⟨holds.1.step isSource admitted stepped,
          linkStep_acknowledged holds.1.underway.informed holds.2 stepped⟩)
      ⟨Exchange.Runs.initial exchange leftFiles rightFiles source.length,
        acknowledged_initial leftFiles rightFiles⟩
  apply acknowledged.receipts
  apply acknowledged.reports
  have reported : FileTransferStatus.completed ∈ link.left.reports :=
    mem_reports.mpr completed
  exact
    List.mem_filter.mpr ⟨List.mem_append_left _ reported, by decide⟩

/-! ## What is left behind -/

/-- What a completed exchange leaves behind if `offset` bytes were kept. -/
structure Exchange.Reconstructs
    (exchange : Exchange) (rightFiles : Files) (source : List UInt8)
    (link : Link) (offset : Nat) (content : List UInt8) : Prop where
  present :
    link.right.files (exchange.applied source.length).destPath =
      some (.file content)
  sent : link.left.fileSent = source.drop offset
  consumed : link.left.fileOut = []
  fromZero :
    .resumeOk ∉ link.right.handled → offset = 0 ∧ content = source
  ready :
    .ready ∈ link.left.handled ∨
        .restartFromZero ∈ link.right.handled →
      .resumeOk ∉ link.right.handled
  resumed :
    .resumeOk ∈ link.right.handled →
      (∃ part,
          rightFiles (exchange.applied source.length).partPath =
              some (.file part) ∧
            offset = part.length / fileChunkSize * fileChunkSize ∧
              0 < offset ∧ offset ≤ source.length ∧
                content = part.take offset ++ source.drop offset) ∨
        ∃ dest,
          rightFiles (exchange.applied source.length).partPath = none ∧
            rightFiles (exchange.applied source.length).destPath =
                some (.file dest) ∧
              dest.length = source.length ∧ offset = source.length ∧
                content = dest

/-- A target of which something is kept is a file. -/
theorem file_of_kept
    {job : RecvJob} {before : Files}
    (kept : (job.kept before).length = job.resumeOffset)
    (positive : 0 < job.resumeOffset) :
    ∃ existing, before job.targetWritePath = some (.file existing) ∧
      job.kept before = existing.take job.resumeOffset := by
  rw [RecvJob.kept] at kept ⊢
  cases found : before.content? job.targetWritePath with
  | none =>
      rw [found, Option.getD_none, List.take_nil] at kept
      rw [← kept] at positive
      cases positive
  | some existing =>
      exact ⟨existing, FileStore.content?_eq_some.mp found, rfl⟩

theorem length?_file
    {files : Files} {path : UnixPath} {content : List UInt8}
    (isFile : files path = some (.file content)) :
    (files.length? path).getD 0 = content.length := by
  rw [FileStore.length?, isFile]
  rfl

theorem alignedOffset_of_pos
    {existing size : Nat} (positive : 0 < alignedOffset existing size) :
    alignedOffset existing size =
      existing / fileChunkSize * fileChunkSize := by
  rw [alignedOffset] at positive ⊢
  split at positive
  · cases positive
  · rename_i fits
    exact if_neg fits

namespace Exchange.Accepted

variable {exchange : Exchange} {leftFiles rightFiles : Files}
  {source : List UInt8} {link : Link}

/-- Behind the receive nothing is left on the stream. -/
theorem stream_empty
    {size : Nat} (accepted : exchange.Accepted rightFiles size link)
    (bound : link.Bound) (received : link.right.receipts ≠ []) :
    link.left.fileOut = [] := by
  obtain noReceipts | ⟨ended, -⟩ := accepted.sole.finished
  · exact absurd noReceipts received
  obtain ⟨noneWaits, noneQueued, noJob⟩ := unfinished_eq_nil.mp ended
  have noneWaits : link.right.coordinator.pendingResumeRecv = none :=
    noneWaits
  have noneQueued : link.right.recvQueue = [] := noneQueued
  have noJob : link.right.receiver.job? = none := noJob
  have notStopped : link.right.receiver ≠ .stopped :=
    fun isStopped => received (accepted.running isStopped)
  have nothing : link.right.awaited link.left.promised = [] := by
    rw [Peer.awaited, noneQueued]
    cases phase : link.right.receiver with
    | idle => rfl
    | stopped => exact absurd phase notStopped
    | _ =>
        rw [phase] at noJob
        cases noJob
  have unconfirmed : link.confirmed = [] := by
    rw [Link.confirmed, noneWaits]
    exact ite_self []
  have flow := bound.flow.resolve_left notStopped
  rw [nothing, unconfirmed, List.append_nil, Peer.owed] at flow
  simp only [List.append_eq_nil_iff, and_assoc] at flow
  exact flow.1

/-- What is kept of the files before, with what it was offered for. -/
theorem reconstructs
    (accepted : exchange.Accepted rightFiles source.length link)
    (underway : exchange.Underway leftFiles link)
    (isSource :
      leftFiles (components exchange.offer.path) = some (.file source))
    (received : link.right.receipts ≠ []) :
    ∃ offset content,
      exchange.Reconstructs rightFiles source link offset content := by
  obtain noReceipts | ⟨ended, receipt, content, receipts, accepts, present,
      holds, -⟩ := accepted.sole.finished
  · exact absurd noReceipts received
  have receipts : link.right.receipts = [receipt] := receipts
  have isReceipt : receipt ∈ link.right.receipts := by
    rw [receipts]
    exact List.mem_cons_self
  have honest := underway.bound.honest receipt isReceipt
  have isPromise :=
    (underway.promised isSource honest.genuine.known).2
  have isStored :
      receipt.verified.stored =
        source.drop receipt.verified.job.resumeOffset := by
    rw [honest.stored, isPromise]
  have noneLeft := accepted.stream_empty underway.bound received
  have isSent :
      link.left.fileSent =
        source.drop receipt.verified.job.resumeOffset := by
    rw [accepted.consumed _ (RecvSide.Took.completed receipt isReceipt),
      noneLeft, List.append_nil, isStored]
  have isSettled :
      receipt.verified.job ∈ link.right.recvSide.settled := by
    refine List.mem_append_right _ ?_
    exact List.mem_map_of_mem isReceipt
  have isContent := holds.whole
  rw [isStored] at isContent
  refine ⟨receipt.verified.job.resumeOffset, content, ?_⟩
  cases accepted.course with
  | fromZero noneWaits notConfirmed fromZero =>
      have isZero := fromZero _ isSettled
      have nothing : receipt.verified.job.kept rightFiles = [] := by
        rw [RecvJob.kept, isZero, List.take_zero]
      rw [nothing, isZero, List.nil_append, List.drop_zero] at isContent
      exact
        { present := present
          sent := isSent
          consumed := noneLeft
          fromZero := fun _ => ⟨isZero, isContent⟩
          ready := fun _ => notConfirmed
          resumed := fun isConfirmed => absurd isConfirmed notConfirmed }
  | waiting job waits isKept notReady notConfirmed notRestarted =>
      obtain ⟨noneWaits, -, -⟩ := unfinished_eq_nil.mp ended
      have noneWaits : link.right.coordinator.pendingResumeRecv = none :=
        noneWaits
      rw [noneWaits] at waits
      cases waits
  | resumed noneWaits notReady notRestarted isConfirmed kept =>
      have isKept := kept _ isSettled
      obtain ⟨existing, isFile, isPrefix⟩ :=
        file_of_kept holds.kept isKept.positive
      rw [isPrefix] at isContent
      refine
        { present := present
          sent := isSent
          consumed := noneLeft
          fromZero := fun notConfirmed => absurd isConfirmed notConfirmed
          ready := ?_
          resumed := fun _ => ?_ }
      · rintro (isReady | isRestarted)
        · exact absurd (Or.inl isReady) notReady
        · exact absurd isRestarted notRestarted
      · cases isKept with
        | part isTarget isOffset positive =>
            rw [isTarget] at isFile
            rw [length?_file isFile] at isOffset
            have aligned :=
              alignedOffset_of_pos (isOffset ▸ positive)
            have within := (alignedOffset_le existing.length source.length).2
            refine
              Or.inl
                ⟨existing, isFile, isOffset.trans aligned, positive, ?_,
                  isContent⟩
            rw [isOffset]
            exact within
        | dest noPart measured isTarget isOffset positive =>
            rw [isTarget] at isFile
            rw [length?_file isFile] at measured
            have isOffset :
                receipt.verified.job.resumeOffset = source.length :=
              isOffset
            have isLength : existing.length = source.length := measured
            refine
              Or.inr
                ⟨existing, noPart, isFile, isLength, isOffset, ?_⟩
            rw [isContent, isOffset, List.drop_length, List.append_nil,
              ← isLength, List.take_length]

end Exchange.Accepted

/-- A receive that has ended is that of the accepted offer. -/
theorem Exchange.Runs.reconstructs
    {exchange : Exchange} {leftFiles rightFiles : Files}
    {source : List UInt8} {link : Link}
    (runs : exchange.Runs leftFiles rightFiles source.length link)
    (isSource :
      leftFiles (components exchange.offer.path) = some (.file source))
    (received : link.right.receipts ≠ []) :
    ∃ offset content,
      exchange.Reconstructs rightFiles source link offset content := by
  obtain unaccepted | accepted := runs.phase
  · exact absurd unaccepted.receipts received
  · exact accepted.reconstructs runs.underway isSource received

/-- If the sending side reports one exchange as completed, the destination
holds the source, or what was kept and the rest of the source, and the stream
has carried exactly that rest. -/
theorem completed_exchange_reconstructs
    {exchange : Exchange} {leftFiles rightFiles : Files}
    {source : List UInt8} {labels : List LinkLabel} {link : Link}
    (isSource :
      leftFiles (components exchange.offer.path) = some (.file source))
    (run :
      Run linkStep exchange.Admits (.initial leftFiles rightFiles) labels
        link)
    (completed : .transferComplete .completed ∈ link.left.events) :
    ∃ offset content,
      exchange.Reconstructs rightFiles source link offset content := by
  have received := receipts_of_completed isSource run completed
  have runs := Exchange.Runs.run isSource run
  exact runs.reconstructs isSource received

/-- The file `a` of one byte is offered, accepted, paused on its way, received
and acknowledged. -/
def oneByteExchange : List LinkLabel :=
  [.rightCommand (.acceptFile "in" true true) .none,
    .leftCommand (.sendFile "a" true true) .none,
    .rightControl .none,
    .leftControl .none,
    .rightCommand .pause .none,
    .leftControl .none,
    .rightCommand .resume .none,
    .leftControl .none] ++ sendAndReceive [1] ++ [.leftControl .none]

end Quiczilla
