import Quiczilla.FilledReceive
import Quiczilla.Reconstruction

/-!
# Exchanges that break off

An exchange can end in any of its states, and the next one finds the files as
they are then.  As long as all of them offer the same source for the same
destination, what is kept is a front of the source, so that the exchange that
is completed at last leaves the source and nothing else.
-/

namespace Quiczilla

open Foundation

/-! ## One exchange -/

section Exchange

variable {exchange : Exchange} {leftFiles rightFiles : Files}
  {source : List UInt8} {link next : Link}

namespace Exchange.Runs

theorem sole
    {size : Nat} (runs : exchange.Runs leftFiles rightFiles size link) :
    link.right.recvSide.Sole rightFiles (exchange.applied size) [] := by
  rcases runs.phase with unaccepted | accepted
  · exact
      RecvSide.Sole.of_ended unaccepted.atRest
        (Or.inl unaccepted.receipts)
  · exact accepted.sole

/-- What is received is the source. -/
theorem matching
    (runs : exchange.Runs leftFiles rightFiles source.length link)
    (isSource :
      leftFiles (components exchange.offer.path) = some (.file source)) :
    ∀ current, link.right.receiver = .receiving current →
      current.Matches source := by
  intro current phase
  have bound := runs.underway.bound
  have genuine := bound.jobs.active
  have matching := bound.matching
  have active : link.right.recvSide.receiver = .receiving current := phase
  rw [active] at genuine
  rw [phase] at matching
  have isPromise := (runs.underway.promised isSource genuine.1.known).2
  rw [← isPromise]
  exact matching

variable
  (resumable :
    Resumable source (exchange.applied source.length).destPath rightFiles)
  (runs : exchange.Runs leftFiles rightFiles source.length link)
  (isSource :
    leftFiles (components exchange.offer.path) = some (.file source))
  (filling : link.right.recvSide.Filling source rightFiles)

include resumable runs isSource filling

/-- A step of the receiving loop. -/
theorem filling_loop
    {label : PeerLabel} {right : Peer} {outbox : List Letter}
    (isLoop : label.isLoop = true)
    (arrives :
      ∀ letter faults, label = .control letter faults →
        letter ∈ link.left.outbox)
    (admitted :
      ∀ accept faults,
        label =
            .command
              (.acceptFile accept.saveDir accept.checksum accept.resume)
              faults →
          exchange.accept = accept)
    (notices :
      link.left.notices =
        label.notice?.toList ++ (link.left.withOutbox outbox).notices)
    (taken : peerStep link.right label = some right) :
    right.recvSide.Filling source rightFiles := by
  cases isApplied : link.right.applied label with
  | none =>
      rcases peerStep_effect taken with effect | ⟨recvLabel, rfl, _⟩
      · exact loopEffect_filling runs.sole filling isApplied effect
      · cases isLoop
  | some applied =>
      rcases runs.phase with unaccepted | accepted
      · have isOffer :=
          runs.underway.applied isSource arrives admitted isApplied
        rw [isOffer] at isApplied
        have isBefore : link.right.recvSide.files = rightFiles :=
          unaccepted.files
        have filled :=
          acceptEffect_filling unaccepted.atRest (isBefore ▸ resumable)
            rfl (peerStep_accepts isApplied taken)
        rw [isBefore] at filled
        exact filled
      · rw [accepted.noAccept notices] at isApplied
        cases isApplied

theorem filling_step
    {label : LinkLabel} (admitted : exchange.Admits link label)
    (stepped : linkStep link label = some next) :
    next.right.recvSide.Filling source rightFiles := by
  cases linkStep_effect stepped with
  | leftCommand command faults left isSend taken => exact filling
  | leftControl faults letter rest left arrived taken => exact filling
  | leftEnds reason left taken => exact filling
  | leftSend label left taken => exact filling
  | rightCommand command faults right receives taken =>
      refine
        @filling_loop _ _ _ _ _ resumable runs isSource filling _ _
          link.left.outbox rfl (fun _ _ isControl => by cases isControl) ?_
          rfl taken
      intro accept others isCommand
      cases isCommand
      exact admitted.1
  | rightControl faults letter rest right arrived taken =>
      refine
        @filling_loop _ _ _ _ _ resumable runs isSource filling
          (.control letter faults) _ rest rfl ?_
          (fun _ _ isCommand => by cases isCommand)
          (notices_of_outbox arrived) taken
      intro other others isOther
      cases isOther
      rw [arrived]
      exact List.mem_cons_self
  | rightEnds reason right taken =>
      exact
        @filling_loop _ _ _ _ _ resumable runs isSource filling _ _
          link.left.outbox rfl (fun _ _ isControl => by cases isControl)
          (fun _ _ isCommand => by cases isCommand) rfl taken
  | received chunk rest right isFront taken =>
      exact
        taskEffect_filling runs.sole resumable (runs.matching isSource)
          filling (recvStep_effect taken)
  | rightRecv label right notReceive taken =>
      exact
        taskEffect_filling runs.sole resumable (runs.matching isSource)
          filling (recvStep_effect taken)

end Exchange.Runs

theorem filling_initial (source : List UInt8) (leftFiles rightFiles : Files) :
    (Link.initial leftFiles rightFiles).right.recvSide.Filling source
      rightFiles := by
  apply
    RecvSide.Filling.of_inactive (FileStore.Fills.refl source rightFiles) rfl
  nofun

/-- Wherever an exchange breaks off, it has filled files with the source. -/
theorem fills_of_run
    {labels : List LinkLabel}
    (resumable :
      Resumable source (exchange.applied source.length).destPath rightFiles)
    (isSource :
      leftFiles (components exchange.offer.path) = some (.file source))
    (run :
      Run linkStep exchange.Admits (.initial leftFiles rightFiles) labels
        link) :
    rightFiles.Fills source link.right.files := by
  have holds :
      exchange.Runs leftFiles rightFiles source.length link ∧
        link.right.recvSide.Filling source rightFiles := by
    refine
      run.preserves
        (fun link =>
          exchange.Runs leftFiles rightFiles source.length link ∧
            link.right.recvSide.Filling source rightFiles)
        ?_
        ⟨Exchange.Runs.initial exchange leftFiles rightFiles source.length,
          filling_initial source leftFiles rightFiles⟩
    intro link next label holds admitted stepped
    exact
      ⟨holds.1.step isSource admitted stepped,
        holds.1.filling_step resumable isSource holds.2 admitted stepped⟩
  exact holds.2.files

/-- What is completed on top of a front of the source is the source. -/
theorem source_of_reconstructs
    {offset : Nat} {content : List UInt8}
    (resumable :
      Resumable source (exchange.applied source.length).destPath rightFiles)
    (reconstructs :
      exchange.Reconstructs rightFiles source link offset content) :
    content = source := by
  by_cases resumed : .resumeOk ∈ link.right.handled
  · rcases reconstructs.resumed resumed with
      ⟨part, isPart, isOffset, positive, within, whole⟩ |
        ⟨dest, noPart, isDest, sized, isOffset, whole⟩
    · have isFront : part <+: source := resumable.staged part isPart
      have reached : offset ≤ part.length := by
        rw [isOffset]
        exact Nat.div_mul_le_self part.length fileChunkSize
      rw [whole, List.prefix_iff_eq_take.mp isFront, List.take_take,
        Nat.min_eq_left reached, List.take_append_drop]
    · rw [whole]
      exact resumable.dest_eq isDest sized
  · exact (reconstructs.fromZero resumed).2

end Exchange

/-! ## One exchange after the other -/

/-- An exchange that takes these steps and breaks off. -/
structure ExchangeAttempt where
  exchange : Exchange
  leftFiles : Files
  labels : List LinkLabel

/-- Two new peers, the receiving one with the files that the last attempt has
left. -/
def Link.attempt (link : Link) (attempt : ExchangeAttempt) : Option Link :=
  guardedReplay linkStep attempt.exchange.Admits
    (.initial attempt.leftFiles link.right.files) attempt.labels

/-- The attempt offers this source for this destination. -/
structure ExchangeAttempt.Offers
    (source : List UInt8) (destPath : UnixPath) (attempt : ExchangeAttempt) :
    Prop where
  isSource :
    attempt.leftFiles (components attempt.exchange.offer.path) =
      some (.file source)
  isDest :
    (attempt.exchange.applied source.length).destPath = destPath

/-- What has been reached after some attempts. -/
structure Link.Resumed
    (source : List UInt8) (destPath : UnixPath) (before : Files)
    (link : Link) : Prop where
  fills : before.Fills source link.right.files
  completed :
    .transferComplete .completed ∈ link.left.events →
      link.right.files destPath = some (.file source)

theorem Link.Resumed.attempt
    {source : List UInt8} {destPath : UnixPath} {before : Files}
    {link next : Link} {attempt : ExchangeAttempt}
    (resumable : Resumable source destPath before)
    (resumed : link.Resumed source destPath before)
    (offers : attempt.Offers source destPath)
    (attempted : link.attempt attempt = some next) :
    next.Resumed source destPath before := by
  have run := run_of_guardedReplay attempted
  have found :
      Resumable source
        (attempt.exchange.applied source.length).destPath
        link.right.files := by
    rw [offers.isDest]
    exact resumable.of_fills resumed.fills
  constructor
  case fills =>
    exact resumed.fills.trans (fills_of_run found offers.isSource run)
  case completed =>
    intro completed
    have received := receipts_of_completed offers.isSource run completed
    obtain ⟨offset, content, reconstructs⟩ :=
      (Exchange.Runs.run offers.isSource run).reconstructs offers.isSource
        received
    rw [← source_of_reconstructs found reconstructs, ← offers.isDest]
    exact reconstructs.present

/-- After any number of exchanges that broke off anywhere, every file of the
receiving side is as it was or a front of the source, and the exchange that is
completed leaves exactly the source. -/
theorem interrupted_exchanges_resume
    {source : List UInt8} {destPath : UnixPath}
    {leftFiles rightFiles : Files} {attempts : List ExchangeAttempt}
    {link : Link}
    (resumable : Resumable source destPath rightFiles)
    (run :
      Run Link.attempt (fun _ attempt => attempt.Offers source destPath)
        (.initial leftFiles rightFiles) attempts link) :
    (∀ path, link.right.files path = rightFiles path ∨
      ∀ content, link.right.files path = some (.file content) →
        content <+: source) ∧
      (.transferComplete .completed ∈ link.left.events →
        link.right.files destPath = some (.file source)) := by
  have resumed : link.Resumed source destPath rightFiles := by
    refine
      run.preserves (Link.Resumed source destPath rightFiles) ?_
        ⟨FileStore.Fills.refl source rightFiles, nofun⟩
    intro link attempt next resumed offers attempted
    exact resumed.attempt resumable offers attempted
  exact ⟨resumed.fills, resumed.completed⟩

end Quiczilla
