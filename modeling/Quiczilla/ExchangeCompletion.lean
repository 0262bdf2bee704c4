import Quiczilla.ExchangeOutcome
import Quiczilla.TruthfulHashes

/-!
# An exchange is completed

If, besides, the receiver does not refuse the offer, its calls succeed and
whatever it keeps is a front of the source, the only outcome is `Completed`.
-/

namespace Quiczilla

open Foundation

def LinkLabel.refuses : LinkLabel → Bool
  | .rightCommand .rejectFile _ => true
  | _ => false

/-- Nothing keeps the receiver from completing the receive, either. -/
def Exchange.Unhindered
    (exchange : Exchange) (link : Link) (label : LinkLabel) : Prop :=
  exchange.Undisturbed link label ∧
    label.refuses = false ∧ link.receiveWorks label = true

instance (exchange : Exchange) (link : Link) (label : LinkLabel) :
    Decidable (exchange.Unhindered link label) := by
  unfold Exchange.Unhindered Exchange.Undisturbed
  infer_instance

/-- Every comparison that the receiving task can make passes. -/
def Link.Passes (link : Link) : Prop :=
  ∀ verifying expectedHash rest,
    link.right.receiver = .verifying verifying →
      link.right.hashQueue = expectedHash :: rest →
        hashOk expectedHash verifying.actualHash = true

theorem Link.Truthful.passes
    {source : List UInt8} {link : Link} (truthful : link.Truthful source) :
    link.Passes := by
  intro verifying expectedHash rest phase isQueue
  apply hashOk_of_vouches
  · apply truthful.queued
    rw [isQueue]
    exact List.mem_cons_self
  · exact truthful.computed verifying phase

/-- Nothing but `Completed` has been reported or is on its way. -/
structure Link.AllCompleted (link : Link) : Prop where
  reported : ∀ status ∈ link.left.reports, status = .completed
  coming :
    ∀ message ∈ link.right.finals, ∀ status,
      message.report? = some status → status = .completed

theorem allCompleted_initial (leftFiles rightFiles : Files) :
    (Link.initial leftFiles rightFiles).AllCompleted where
  reported _ member := by cases member
  coming _ member := by cases member

namespace Link.AllCompleted

variable {link next : Link}

theorem of_same
    {left right : Peer} (all : link.AllCompleted)
    (reports : left.reports = link.left.reports)
    (finals :
      ∀ message ∈ right.finals, message ∈ link.right.finals) :
    Link.AllCompleted ⟨left, right⟩ where
  reported := by
    change ∀ status ∈ left.reports, _
    rw [reports]
    exact all.reported
  coming message member := all.coming message (finals message member)

/-- A comparison that passes completes the receive. -/
theorem receiving
    {left right : Peer} {label : RecvLabel} (all : link.AllCompleted)
    (passes : link.Passes)
    (works : link.right.receiveWorks label = true)
    (reports : left.reports = link.left.reports)
    (taken : link.right.recvStep label = some right) :
    Link.AllCompleted ⟨left, right⟩ := by
  cases recvStep_verdict taken with
  | silent _ _ isNext =>
      refine all.of_same reports ?_
      rw [show right.finals = link.right.finals from
        congrArg FinalSide.finals isNext]
      exact fun _ member => member
  | judged comparison rest message isCompared _ isQueue isReport _ isNext =>
      have passed : comparison.passes = true :=
        passes _ _ _ (comparison?_eq_some isCompared) isQueue
      have isCompleted : comparison.status = .completed := by
        rw [Comparison.status, if_pos passed]
      have finals : right.finals = link.right.finals ++ [message] :=
        congrArg FinalSide.finals isNext
      refine ⟨(all.of_same reports fun _ member => member).reported, ?_⟩
      intro other member status isStatus
      change other ∈ right.finals at member
      rw [finals] at member
      obtain before | last := List.mem_append.mp member
      · exact all.coming other before status isStatus
      · rw [List.mem_singleton.mp last, isReport] at isStatus
        rw [← Option.some.inj isStatus]
        exact isCompleted
  | uncommitted _ _ _ fails => cases works.symm.trans fails
  | gaveUp _ fails => cases works.symm.trans fails

/-- A report arrives. -/
theorem arrived
    {letter : Letter} {rest : List Letter} {faults : Faults} {left : Peer}
    (all : link.AllCompleted) (outbox : link.right.outbox = letter :: rest)
    (taken : peerStep link.left (.control letter faults) = some left) :
    Link.AllCompleted ⟨left, link.right.withOutbox rest⟩ := by
  have reports := control_reports taken
  have coming := all.coming
  rw [finals_of_outbox outbox] at coming
  constructor
  case reported =>
    intro status member
    change status ∈ left.reports at member
    rw [reports] at member
    obtain before | now := List.mem_append.mp member
    · exact all.reported status before
    · have isStatus := Option.mem_toList.mp now
      apply coming letter.message ?_ status isStatus
      apply List.mem_append_left
      rw [List.filter_cons_of_pos
        (by rw [ControlMessage.isFinal, isStatus]; rfl)]
      exact List.mem_cons_self
  case coming =>
    exact fun message member =>
      coming message (List.mem_append_right _ member)

theorem step
    {label : LinkLabel} (all : link.AllCompleted)
    (passes : link.Passes) (informed : link.Informed)
    (accepts : label.refuses = false)
    (works : link.receiveWorks label = true)
    (stepped : linkStep link label = some next) :
    next.AllCompleted := by
  cases linkStep_effect stepped with
  | leftCommand command faults left isSend taken =>
      have side := (loopStep_finalSide rfl taken).1
      rw [after_sends _ faults isSend] at side
      exact
        all.of_same (congrArg FinalSide.reports side)
          (fun _ member => member)
  | leftControl faults letter rest left outbox taken =>
      exact all.arrived outbox taken
  | leftEnds reason left taken =>
      have side := (loopStep_finalSide rfl taken).1
      exact
        all.of_same (congrArg FinalSide.reports side)
          (fun _ member => member)
  | leftSend label left taken =>
      exact
        all.of_same (sendStep_reports informed.inline taken)
          (fun _ member => member)
  | rightCommand command faults right receives taken =>
      have side := (loopStep_finalSide rfl taken).1
      have finals : right.finals = link.right.finals := by
        have after := congrArg FinalSide.finals side
        cases command with
        | rejectFile => cases accepts
        | _ => exact after
      refine @of_same link link.left right all rfl ?_
      rw [finals]
      exact fun _ member => member
  | rightControl faults letter rest right outbox taken =>
      have finals : right.finals = link.right.finals :=
        congrArg FinalSide.finals (loopStep_finalSide rfl taken).1
      refine @of_same _ (link.left.withOutbox rest) right all rfl ?_
      rw [finals]
      exact fun _ member => member
  | rightEnds reason right taken =>
      have finals : right.finals = link.right.finals :=
        congrArg FinalSide.finals (loopStep_finalSide rfl taken).1
      refine @of_same link link.left right all rfl ?_
      rw [finals]
      exact fun _ member => member
  | received chunk rest right isFront taken =>
      exact
        @receiving _ (link.left.withFileOut rest) _ _ all passes works
          rfl taken
  | rightRecv label right notReceive taken =>
      exact @receiving _ link.left _ _ all passes works rfl taken

end Link.AllCompleted

/-- What an unhindered exchange keeps. -/
structure Exchange.Succeeds
    (exchange : Exchange) (leftFiles rightFiles : Files)
    (source : List UInt8) (link : Link) : Prop where
  proceeds : exchange.Proceeds leftFiles rightFiles source link
  filling : link.right.recvSide.Filling source rightFiles
  truthful : link.Truthful source
  all : link.AllCompleted

theorem Exchange.Succeeds.step
    {exchange : Exchange} {leftFiles rightFiles : Files}
    {source : List UInt8} {link next : Link} {label : LinkLabel}
    (succeeds : exchange.Succeeds leftFiles rightFiles source link)
    (isSource :
      leftFiles (components exchange.offer.path) = some (.file source))
    (resumable :
      Resumable source (exchange.applied source.length).destPath rightFiles)
    (unhindered : exchange.Unhindered link label)
    (stepped : linkStep link label = some next) :
    exchange.Succeeds leftFiles rightFiles source next := by
  obtain ⟨proceeds, filling, truthful, all⟩ := succeeds
  have runs := proceeds.runs
  obtain ⟨undisturbed, accepts, works⟩ := unhindered
  exact
    { proceeds := proceeds.step isSource undisturbed stepped
      filling :=
        runs.filling_step resumable isSource filling undisturbed.1 stepped
      truthful :=
        truthful.step runs isSource proceeds.hashes filling stepped
      all :=
        all.step truthful.passes runs.underway.informed accepts works
          stepped }

/-- Besides, if the receiver does not refuse the offer, its calls succeed and
whatever it has kept is a front of the source, the exchange can only stop
completed, with the source at the destination. -/
theorem unhindered_exchange_completes
    {exchange : Exchange} {leftFiles rightFiles : Files}
    {source : List UInt8} {labels : List LinkLabel} {link : Link}
    (isSource :
      leftFiles (components exchange.offer.path) = some (.file source))
    (resumable :
      Resumable source (exchange.applied source.length).destPath rightFiles)
    (run :
      Run linkStep exchange.Unhindered (.initial leftFiles rightFiles)
        labels link)
    (announced : link.left.coordinator.announced ≠ [])
    (answered : link.right.held = none)
    (leftRuns : link.left.paused = false)
    (rightRuns : link.right.paused = false)
    (stopped :
      ∀ label, link.advances label = true → linkStep link label = none) :
    (∀ status,
      .transferComplete status ∈ link.left.events ↔ status = .completed) ∧
      link.right.files (exchange.applied source.length).destPath =
        some (.file source) := by
  have succeeds :
      exchange.Succeeds leftFiles rightFiles source link := by
    refine
      run.preserves (exchange.Succeeds leftFiles rightFiles source) ?_
        ⟨Exchange.Proceeds.initial exchange leftFiles rightFiles source,
          filling_initial source leftFiles rightFiles,
          Link.Truthful.initial source leftFiles rightFiles,
          allCompleted_initial leftFiles rightFiles⟩
    intro link label next succeeds unhindered stepped
    exact succeeds.step isSource resumable unhindered stepped
  obtain ⟨status, reported⟩ :=
    succeeds.proceeds.outcome isSource announced answered leftRuns
      rightRuns stopped
  have isCompleted := succeeds.all.reported status reported
  rw [isCompleted] at reported
  have completed := mem_reports.mp reported
  constructor
  · intro other
    constructor
    · intro told
      exact succeeds.all.reported other (mem_reports.mpr told)
    · rintro rfl
      exact completed
  have admitted := run.weaken fun _ _ unhindered => unhindered.1.1
  have received := receipts_of_completed isSource admitted completed
  obtain ⟨offset, content, reconstructs⟩ :=
    succeeds.proceeds.runs.reconstructs isSource received
  rw [← source_of_reconstructs resumable reconstructs]
  exact reconstructs.present

theorem unhindered_exchange_completes_one_byte :
    ∃ link : Link,
      Run linkStep
          (Exchange.Unhindered ⟨⟨"a", true, true⟩, ⟨"in", true, true⟩⟩)
          (.initial twoSources fun _ => none) oneByteExchange link ∧
        (∀ status,
          .transferComplete status ∈ link.left.events ↔
            status = .completed) ∧
          link.right.files (components "in/a") = some (.file [1]) := by
  have ran :
      (guardedReplay linkStep
          (Exchange.Unhindered ⟨⟨"a", true, true⟩, ⟨"in", true, true⟩⟩)
          (.initial twoSources fun _ => none) oneByteExchange).map
          (fun link =>
            decide
              ((link.left.coordinator.announced ≠ [] ∧
                  link.right.held = none) ∧
                (link.left.paused = false ∧ link.right.paused = false) ∧
                  (link.left.outbox = [] ∧ link.right.outbox = []) ∧
                    (link.left.sendQueue = [] ∧
                        link.left.sender = .idle) ∧
                      link.right.recvQueue = [] ∧
                        link.right.receiver = .idle)) =
        some true := by
    decide +kernel
  obtain ⟨link, reached, isDone⟩ := Option.map_eq_some_iff.mp ran
  obtain
    ⟨⟨announced, answered⟩, ⟨leftRuns, rightRuns⟩, ⟨leftOut, rightOut⟩,
      ⟨noJobs, leftIdle⟩, noReceives, rightIdle⟩ :=
    of_decide_eq_true isDone
  have run := run_of_guardedReplay reached
  have resumable :
      Resumable [1]
        (Exchange.applied ⟨⟨"a", true, true⟩, ⟨"in", true, true⟩⟩ 1).destPath
        fun _ => none :=
    ⟨by rintro _ ⟨⟩, by rintro _ _ ⟨⟩⟩
  have isDest :
      (Exchange.applied ⟨⟨"a", true, true⟩, ⟨"in", true, true⟩⟩ 1).destPath =
        components "in/a" := by
    decide +kernel
  rw [← isDest]
  exact
    ⟨link, run,
      @unhindered_exchange_completes
        ⟨⟨"a", true, true⟩, ⟨"in", true, true⟩⟩ _ _ [1] _ _ (if_pos rfl)
        resumable run announced answered leftRuns rightRuns
        (stopped_of_idle leftOut rightOut noJobs leftIdle noReceives
          rightIdle)⟩

end Quiczilla
