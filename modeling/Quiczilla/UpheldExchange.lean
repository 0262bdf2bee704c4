import Quiczilla.ExchangeFlags
import Quiczilla.KeptDestination

/-!
# What holds all along an exchange

The invariants of one exchange as one condition on its link.  The cancellation
of either peer leaves it as it is, so that an application may cancel at any
time.
-/

namespace Quiczilla

open Foundation

/-- Both peers with the given state of their cancellation token. -/
def Link.withCancelled (link : Link) (left right : Bool) : Link where
  left := { link.left with cancelled := left }
  right := { link.right with cancelled := right }

section Cancelling

variable {exchange : Exchange} {leftFiles rightFiles : Files}
  {source kept : List UInt8} {size : Nat} {link : Link}

theorem Link.Bound.withCancelled
    (bound : link.Bound) (left right : Bool) :
    (link.withCancelled left right).Bound := by
  have keeps : link.left.Keeps (link.withCancelled left right).left :=
    ⟨rfl, List.prefix_rfl⟩
  exact
    { roles :=
        ⟨⟨bound.roles.sends.noAccept, bound.roles.sends.noResume⟩,
          bound.roles.receives⟩
      sound := bound.sound
      quiet := bound.quiet
      last := bound.last
      reads := bound.reads
      unbroken := bound.unbroken
      notices := fun offer member => keeps.offer (bound.notices offer member)
      held := fun offer isHeld => keeps.offer (bound.held offer isHeld)
      jobs := keeps.jobs bound.jobs
      resuming := bound.resuming
      matching := bound.matching
      honest := fun receipt member =>
        keeps.receipt (bound.honest receipt member)
      flow := bound.flow }

theorem Link.Informed.withCancelled
    (informed : link.Informed) (left right : Bool) :
    (link.withCancelled left right).Informed where
  inline := informed.inline
  announced := informed.announced
  queued := informed.queued
  computed := informed.computed

theorem Exchange.Underway.withCancelled
    (underway : exchange.Underway leftFiles link) (left right : Bool) :
    exchange.Underway leftFiles (link.withCancelled left right) where
  bound := underway.bound.withCancelled left right
  informed := underway.informed.withCancelled left right
  sources := underway.sources
  once := underway.once.of_same rfl rfl rfl rfl rfl
  offers := underway.offers
  held := underway.held
  accepts := underway.accepts

theorem Link.Unaccepted.withCancelled
    (unaccepted : link.Unaccepted rightFiles) (left right : Bool) :
    (link.withCancelled left right).Unaccepted rightFiles where
  files := unaccepted.files
  atRest := unaccepted.atRest
  idle := unaccepted.idle
  receipts := unaccepted.receipts
  unready := unaccepted.unready
  unconfirmed := unaccepted.unconfirmed
  unrestarted := unaccepted.unrestarted
  untaken := unaccepted.untaken

theorem Exchange.Accepted.withCancelled
    (accepted : exchange.Accepted rightFiles size link)
    (left right : Bool) :
    exchange.Accepted rightFiles size (link.withCancelled left right) where
  sole := accepted.sole
  offered := accepted.offered
  taken := accepted.taken
  unheld := accepted.unheld
  course :=
    accepted.course.of_same rfl (fun _ member => member)
      (fun readied => readied) Iff.rfl Iff.rfl
  consumed := accepted.consumed
  running := accepted.running

theorem Exchange.Runs.withCancelled
    (runs : exchange.Runs leftFiles rightFiles size link)
    (left right : Bool) :
    exchange.Runs leftFiles rightFiles size
      (link.withCancelled left right) where
  underway := runs.underway.withCancelled left right
  phase :=
    runs.phase.imp (fun unaccepted => unaccepted.withCancelled left right)
      (fun accepted => accepted.withCancelled left right)

theorem Exchange.Digested.withCancelled
    (digested : exchange.Digested source link) (left right : Bool) :
    exchange.Digested source (link.withCancelled left right) where
  sender :=
    { queued := digested.sender.queued
      opening := digested.sender.opening
      streaming := digested.sender.streaming }
  announced := digested.announced
  queued := digested.queued
  compared := digested.compared
  checked := digested.checked

end Cancelling

/-- What holds in every run, whatever fails and whenever it is cancelled. -/
structure Exchange.Attended (exchange : Exchange) (link : Link) : Prop where
  sends : link.left.OnlySends
  informed : link.Informed
  acknowledged : link.Acknowledged
  flagged : exchange.Flagged link

namespace Exchange.Attended

variable {exchange : Exchange} {leftFiles rightFiles : Files}
  {link next : Link}

theorem initial (exchange : Exchange) (leftFiles rightFiles : Files) :
    exchange.Attended (.initial leftFiles rightFiles) where
  sends := ⟨rfl, rfl⟩
  informed :=
    (Exchange.Underway.initial exchange leftFiles rightFiles).informed
  acknowledged := acknowledged_initial leftFiles rightFiles
  flagged := Exchange.Flagged.initial exchange leftFiles rightFiles

theorem step
    {label : LinkLabel} (attended : exchange.Attended link)
    (admitted :
      ∀ path checksum resume faults,
        label = .leftCommand (.sendFile path checksum resume) faults →
          exchange.offer = ⟨path, checksum, resume⟩)
    (stepped : linkStep link label = some next) :
    exchange.Attended next := by
  refine
    ⟨?_, attended.informed.step stepped,
      linkStep_acknowledged attended.informed attended.acknowledged stepped,
      attended.flagged.step attended.sends admitted stepped⟩
  have loops {peerLabel : PeerLabel} {left : Peer}
      (noAccept :
        ∀ command faults, peerLabel = .command command faults →
          command.sends = true)
      (isLoop : peerLabel.isLoop = true)
      (taken : peerStep link.left peerLabel = some left) :
      left.OnlySends :=
    (sendingLoop_keeps attended.sends noAccept isLoop taken).2
  cases linkStep_effect stepped with
  | leftCommand command faults left isSend taken =>
      refine loops (fun _ _ isCommand => ?_) rfl taken
      cases isCommand
      exact isSend
  | leftControl faults letter rest left arrived taken =>
      exact loops (fun _ _ isCommand => by cases isCommand) rfl taken
  | leftEnds reason left taken =>
      exact loops (fun _ _ isCommand => by cases isCommand) rfl taken
  | leftSend task left taken =>
      have same := (sendStep_files taken).2
      constructor
      · rw [same]
        exact attended.sends.noAccept
      · rw [same]
        exact attended.sends.noResume
  | rightControl faults letter rest right arrived taken =>
      exact ⟨attended.sends.noAccept, attended.sends.noResume⟩
  | received chunk rest right isFront taken =>
      exact ⟨attended.sends.noAccept, attended.sends.noResume⟩
  | _ => exact attended.sends

theorem withCancelled
    (attended : exchange.Attended link) (left right : Bool) :
    exchange.Attended (link.withCancelled left right) where
  sends := ⟨attended.sends.noAccept, attended.sends.noResume⟩
  informed := attended.informed.withCancelled left right
  acknowledged :=
    ⟨attended.acknowledged.receipts, attended.acknowledged.reports⟩
  flagged :=
    ⟨attended.flagged.announced, attended.flagged.told,
      attended.flagged.known⟩

/-- Where the sending side has reported a completion, the file has been
received. -/
theorem received
    (attended : exchange.Attended link)
    (completed : .transferComplete .completed ∈ link.left.events) :
    link.right.receipts ≠ [] := by
  have reported : FileTransferStatus.completed ∈ link.left.reports :=
    mem_reports.mpr completed
  apply attended.acknowledged.receipts
  apply attended.acknowledged.reports
  exact
    List.mem_filter.mpr ⟨List.mem_append_left _ reported, by decide⟩

end Exchange.Attended

/-- What holds of the link of an exchange as long as staging files can be cut
back and hashes can be computed. -/
structure Exchange.Upheld
    (exchange : Exchange) (leftFiles rightFiles : Files)
    (source : List UInt8) (link : Link) : Prop where
  attended : exchange.Attended link
  runs : exchange.Runs leftFiles rightFiles source.length link
  unasked : ¬exchange.MayResume source.length → link.Unasked
  vouched :
    resumeThresholdBytes ≤ source.length →
      link.Vouched ((exchange.applied source.length).kept rightFiles) source
  digested : exchange.offer.checksum = true → exchange.Digested source link

namespace Exchange.Upheld

variable {exchange : Exchange} {leftFiles rightFiles : Files}
  {source : List UInt8} {link next : Link}

theorem initial
    (exchange : Exchange) (leftFiles rightFiles : Files)
    (source : List UInt8) :
    exchange.Upheld leftFiles rightFiles source
      (.initial leftFiles rightFiles) where
  attended := Exchange.Attended.initial exchange leftFiles rightFiles
  runs := Exchange.Runs.initial exchange leftFiles rightFiles source.length
  unasked _ := Link.Unasked.initial leftFiles rightFiles
  vouched _ := Link.Vouched.initial _ source leftFiles rightFiles
  digested _ :=
    Exchange.Digested.initial exchange source leftFiles rightFiles

theorem step
    {label : LinkLabel}
    (upheld : exchange.Upheld leftFiles rightFiles source link)
    (isSource :
      leftFiles (components exchange.offer.path) = some (.file source))
    (verifies : exchange.Verifies link label)
    (stepped : linkStep link label = some next) :
    exchange.Upheld leftFiles rightFiles source next := by
  obtain ⟨admitted, works⟩ := verifies
  have runs := upheld.runs.step isSource admitted stepped
  have attended : exchange.Attended next := by
    refine upheld.attended.step ?_ stepped
    intro path checksum resume faults isCommand
    rw [isCommand] at admitted
    exact admitted.1
  refine ⟨attended, runs, ?_, ?_, ?_⟩
  · intro modest
    exact
      (upheld.unasked modest).step modest upheld.runs.underway
        attended.flagged isSource admitted stepped
  · intro large
    exact
      (upheld.vouched large).step large upheld.runs runs isSource
        (link.compares_of_hashes works) stepped
  · intro checksum
    exact
      (upheld.digested checksum).step upheld.runs isSource checksum works
        stepped

theorem withCancelled
    (upheld : exchange.Upheld leftFiles rightFiles source link)
    (left right : Bool) :
    exchange.Upheld leftFiles rightFiles source
      (link.withCancelled left right) where
  attended := upheld.attended.withCancelled left right
  runs := upheld.runs.withCancelled left right
  unasked modest := by
    have unasked := upheld.unasked modest
    exact
      ⟨unasked.noneWaits, unasked.unasked, unasked.unconfirmed,
        unasked.unhandled⟩
  vouched large :=
    ⟨(upheld.vouched large).asked, (upheld.vouched large).confirmed⟩
  digested checksum := (upheld.digested checksum).withCancelled left right

/-- A file that is not resumed is received as it is. -/
theorem content_unresumed
    (upheld : exchange.Upheld leftFiles rightFiles source link)
    (isSource :
      leftFiles (components exchange.offer.path) = some (.file source))
    (modest : ¬exchange.MayResume source.length)
    (completed : .transferComplete .completed ∈ link.left.events) :
    link.right.files (exchange.applied source.length).destPath =
      some (.file source) := by
  have received := upheld.attended.received completed
  obtain unaccepted | accepted := upheld.runs.phase
  · exact absurd unaccepted.receipts received
  · obtain ⟨offset, content, reconstructs⟩ :=
      accepted.reconstructs upheld.runs.underway isSource received
    have whole :=
      (reconstructs.fromZero (upheld.unasked modest).unhandled).2
    rw [reconstructs.present, whole]

/-- What a completed exchange leaves behind. -/
theorem content
    (upheld : exchange.Upheld leftFiles rightFiles source link)
    (isSource :
      leftFiles (components exchange.offer.path) = some (.file source))
    (completed : .transferComplete .completed ∈ link.left.events) :
    ∃ content,
      link.right.files (exchange.applied source.length).destPath =
          some (.file content) ∧
        (¬exchange.MayResume source.length → content = source) ∧
          exchange.Leaves
            ((exchange.applied source.length).kept rightFiles) source
            content := by
  by_cases resumes : exchange.MayResume source.length
  · obtain ⟨content, present, isWhole | mixes⟩ :=
      content_of_received resumes.1 isSource upheld.runs
        (upheld.vouched resumes.1) upheld.digested
        (upheld.attended.received completed)
    · refine ⟨content, present, fun _ => isWhole, ?_⟩
      rw [isWhole]
      exact leaves_source exchange _ source
    · exact
        ⟨content, present, fun modest => absurd resumes modest,
          mixes.leaves⟩
  · exact
      ⟨source, upheld.content_unresumed isSource resumes completed,
        fun _ => rfl, leaves_source exchange _ source⟩

end Exchange.Upheld

end Quiczilla
