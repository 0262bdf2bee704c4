import Quiczilla.DirectoryAck
import Quiczilla.DirectoryArrival
import Quiczilla.DirectoryMirror
import Quiczilla.DirectoryWriting
import Quiczilla.ErrorClasses

/-!
# A directory transfer

The sending side writes a directory to one direction of a stream and reads the
acknowledgement from the other one.  The first of the two that ends decides
which one is waited for; a send that is still not done five seconds after a
good acknowledgement is given up.  When the send ends first, the read of the
acknowledgement is dropped with the bytes that it has taken, and another one
reads what is behind them.

What has been written arrives in parts, and either direction can be cut off
anywhere: a step that finds too few bytes is one at which the stream has ended.
It can also be aborted, which every later read reports.
-/

namespace Quiczilla

open Foundation

/-! ## The session -/

/-- Where the sending side is in its `select!` over the send and the
acknowledgement, of which the read inside it has `taken` so many bytes. -/
inductive DirectoryCli where
  | racing (taken : Nat)
  | acknowledged (ack : DirectoryTransferStats)
  | sent (stats : DirectoryTransferStats)
  | completed (stats acknowledged : DirectoryTransferStats)
  | failed (reason : String)
  deriving DecidableEq, Repr

/-- `arrived` counts the bytes of the stream that have reached the receiver, and
`ack` is what the receiver has written, of which `dropped` bytes went with the
read inside `select!`. -/
structure DirectorySession where
  sender : DirectorySender
  arrived : Nat
  receiver : DirectoryReceiver
  ack : Option (List UInt8)
  dropped : Nat
  cli : DirectoryCli

inductive DirectorySessionLabel where
  | write (label : DirectoryWriteLabel)
  | arrive (count : Nat)
  | receive (label : DirectoryReceiveLabel)
  | acknowledge
  | takeAck (count : Nat)
  | readAck (count : Nat)
  | ackAborted (abort : StreamAbort)
  | sendEnds
  | timeout

def DirectorySession.start
    (tree : SourceTree) (profile : StorageProfile) (checksum : Bool)
    (destination : FileTree) : DirectorySession where
  sender := .start tree.entries profile checksum
  arrived := 0
  receiver := .start destination []
  ack := none
  dropped := 0
  cli := .racing 0

/-- What `receive_directory` has returned. -/
def DirectoryReceiver.result? (receiver : DirectoryReceiver) :
    Option (Except String DirectoryTransferStats) :=
  match receiver.phase with
  | .done => some (.ok receiver.stats)
  | .failed reason => some (.error reason)
  | _ => none

namespace DirectorySession

def withCli (session : DirectorySession) (cli : DirectoryCli) :
    DirectorySession :=
  { session with cli := cli }

/-- The next bytes reach the receiver. -/
def arrive (session : DirectorySession) (count : Nat) :
    Option DirectorySession :=
  if session.arrived + count ≤ session.sender.written.length then
    some
      { session with
        arrived := session.arrived + count
        receiver :=
          { session.receiver with
            input :=
              session.receiver.input ++
                (session.sender.written.drop session.arrived).take
                  count } }
  else none

/-- The read inside `select!` takes more of the acknowledgement and waits for
the rest. -/
def takeAck (session : DirectorySession) (count : Nat) :
    Option DirectorySession :=
  match session.cli with
  | .racing taken =>
      if taken + count ≤ (session.ack.getD []).length ∧
          ackPending ((session.ack.getD []).take (taken + count)) then
        some (session.withCli (.racing (taken + count)))
      else none
  | _ => none

/-- The acknowledgement has arrived as far as it ever will. -/
def readAck (session : DirectorySession) (count : Nat) :
    Option DirectorySession :=
  match session.cli with
  | .racing taken =>
      if taken ≤ count then
        match readDirectoryAck ((session.ack.getD []).take count) with
        | .ok ack => some (session.withCli (.acknowledged ack))
        | .error reason => some (session.withCli (.failed reason))
      else none
  | .sent stats =>
      match
        readDirectoryAck
          (((session.ack.getD []).drop session.dropped).take count) with
      | .ok ack => some (session.withCli (.completed stats ack))
      | .error reason => some (session.withCli (.failed reason))
  | _ => none

/-- A read of the acknowledgement finds the stream aborted. -/
def ackAborted (session : DirectorySession) (abort : StreamAbort) :
    Option DirectorySession :=
  match session.cli with
  | .racing _ => some (session.withCli (.failed abort.text))
  | .sent _ => some (session.withCli (.failed abort.text))
  | _ => none

/-- The send has returned.  If the acknowledgement is still being read, that
read is dropped. -/
def sendEnds (session : DirectorySession) : Option DirectorySession :=
  match session.cli, session.sender.phase with
  | .racing taken, .done =>
      some
        { session with
          dropped := taken
          cli := .sent session.sender.stats }
  | .acknowledged ack, .done =>
      some (session.withCli (.completed session.sender.stats ack))
  | .racing _, .failed reason => some (session.withCli (.failed reason))
  | .acknowledged _, .failed reason =>
      some (session.withCli (.failed reason))
  | _, _ => none

/-- Only the totals of the acknowledgement are known then. -/
def timeout (session : DirectorySession) : Option DirectorySession :=
  match session.cli with
  | .acknowledged ack =>
      some
        (session.withCli
          (.completed ⟨ack.files, 0, ack.bytes, 0⟩ ack))
  | _ => none

end DirectorySession

def directorySessionStep
    (rootName : EntryName) (base : Location) (session : DirectorySession) :
    DirectorySessionLabel → Option DirectorySession
  | .write label =>
      (directoryWriteStep rootName session.sender label).map fun sender =>
        { session with sender := sender }
  | .arrive count => session.arrive count
  | .receive label =>
      (directoryReceiveStep base session.receiver label).map fun receiver =>
        { session with receiver := receiver }
  | .acknowledge =>
      if session.ack = none then
        session.receiver.result?.map fun result =>
          { session with ack := some (encodeDirectoryAck result) }
      else none
  | .takeAck count => session.takeAck count
  | .readAck count => session.readAck count
  | .ackAborted abort => session.ackAborted abort
  | .sendEnds => session.sendEnds
  | .timeout => session.timeout

/-- The code with which the process exits, once it does. -/
def DirectoryCli.exitCode (table : Lowercase) : DirectoryCli → Option Nat
  | .completed _ _ => some 0
  | .failed reason => some (CliFailure.fromError table reason).code
  | _ => none

/-! ## The invariant of a session -/

/-- The acknowledgement gives the totals of a reception that is done. -/
def DirectorySession.Stored
    (session : DirectorySession) (ack : DirectoryTransferStats) : Prop :=
  session.receiver.phase = .done ∧
    ack =
      ⟨session.receiver.stats.files, 0, session.receiver.stats.bytes, 0⟩

/-- The receiver has failed, and the first bytes of its acknowledgement went
with the read that was dropped. -/
def DirectorySession.Misread (session : DirectorySession) : Prop :=
  0 < session.dropped ∧ ∃ why, session.receiver.phase = .failed why

/-- The errors of a stream that ends or is aborted. -/
def streamErrors : List String :=
  ["unexpected end of file", "early eof", StreamAbort.receive.text,
    StreamAbort.send.text]

/-- Where an error of the sending side comes from. -/
def DirectorySession.Explains
    (session : DirectorySession) (reason : String) : Prop :=
  session.sender.phase = .failed reason ∨ reason ∈ streamErrors ∨
    (∃ why, session.receiver.phase = .failed why ∧
      reason = rejection ((utf8Bytes why).take maxAckErrorBytes)) ∨
      0 < session.dropped

/-- What the sending side knows. -/
def DirectorySession.Knows (session : DirectorySession) :
    DirectoryCli → Prop
  | .racing _ => True
  | .acknowledged ack => session.Stored ack
  | .sent stats =>
      session.sender.phase = .done ∧ stats = session.sender.stats
  | .completed stats ack =>
      (session.Stored ack ∨ session.Misread) ∧
        ((session.sender.phase = .done ∧ stats = session.sender.stats) ∨
          stats = ⟨ack.files, 0, ack.bytes, 0⟩)
  | .failed reason => session.Explains reason

structure DirectorySession.Holds
    (tree : SourceTree) (profile : StorageProfile) (checksum : Bool)
    (base : Location) (destination : FileTree)
    (session : DirectorySession) : Prop where
  sends : SendsPart tree profile checksum session.sender
  within : session.arrived ≤ session.sender.written.length
  receives :
    session.receiver.phase.isFailed = true ∨
      ∃ labels,
        Run (directoryReceiveStep base) anyStep
          (.start destination
            (session.sender.written.take session.arrived))
          labels session.receiver
  acks :
    ∀ bytes, session.ack = some bytes →
      ∃ result, session.receiver.result? = some result ∧
        bytes = encodeDirectoryAck result
  knows : session.Knows session.cli

/-- A sender that is still sending. -/
def DirectorySender.isActive (sender : DirectorySender) : Bool :=
  match sender.phase with
  | .opening => true
  | .walking => true
  | _ => false

theorem active_of_sendStep
    {rootName : EntryName} {sender next : DirectorySender}
    {label : DirectorySendLabel}
    (stepped : directorySendStep rootName sender label = some next) :
    sender.isActive = true := by
  rw [DirectorySender.isActive]
  cases isPhase : sender.phase with
  | opening => rfl
  | walking => rfl
  | done =>
      cases label <;> simp [directorySendStep, isPhase] at stepped
  | failed reason =>
      cases label <;> simp [directorySendStep, isPhase] at stepped

theorem active_of_writeStep
    {rootName : EntryName} {sender next : DirectorySender}
    {label : DirectoryWriteLabel}
    (stepped : directoryWriteStep rootName sender label = some next) :
    sender.isActive = true := by
  cases label with
  | next label =>
      rw [directoryWriteStep] at stepped
      split at stepped
      · exact active_of_sendStep stepped
      · cases stepped
  | stopped label count reason =>
      rw [directoryWriteStep] at stepped
      split at stepped
      · obtain ⟨whole, taken, -⟩ := Option.map_eq_some_iff.mp stepped
        exact active_of_sendStep taken
      · cases stepped

theorem result_of_receiveStep
    {base : Location} {receiver next : DirectoryReceiver}
    {label : DirectoryReceiveLabel}
    (stepped : directoryReceiveStep base receiver label = some next) :
    receiver.result? = none := by
  rw [DirectoryReceiver.result?]
  cases isPhase : receiver.phase with
  | done =>
      cases label <;>
        simp [directoryReceiveStep, DirectoryReceiver.reads, isPhase]
          at stepped
  | failed reason =>
      rw [not_step_of_failed (by rw [isPhase]; rfl)] at stepped
      cases stepped
  | _ => rfl

section Holding

variable {tree : SourceTree} {profile : StorageProfile} {checksum : Bool}
  {base : Location} {destination : FileTree}
  {session next : DirectorySession}

/-- What is known about a reception that has returned stays so. -/
theorem knows_of_receiver
    {receiver : DirectoryReceiver} (cli : DirectoryCli)
    (knows : session.Knows cli)
    (same :
      session.receiver.result? ≠ none →
        receiver.phase = session.receiver.phase ∧
          receiver.stats = session.receiver.stats) :
    DirectorySession.Knows { session with receiver := receiver } cli := by
  have stored {ack : DirectoryTransferStats} (holds : session.Stored ack) :
      DirectorySession.Stored { session with receiver := receiver } ack := by
    obtain ⟨isDone, isAck⟩ := holds
    have returned : session.receiver.result? ≠ none := by
      simp [DirectoryReceiver.result?, isDone]
    obtain ⟨isPhase, isStats⟩ := same returned
    refine ⟨isPhase.trans isDone, ?_⟩
    rw [isAck, ← isStats]
  have refused {why : String}
      (isFailed : session.receiver.phase = .failed why) :
      receiver.phase = .failed why := by
    have returned : session.receiver.result? ≠ none := by
      simp [DirectoryReceiver.result?, isFailed]
    exact (same returned).1.trans isFailed
  cases cli with
  | racing taken => trivial
  | acknowledged ack => exact stored knows
  | sent stats => exact knows
  | completed stats ack =>
      obtain ⟨isStored | ⟨some, why, isFailed⟩, isStats⟩ := knows
      · exact ⟨Or.inl (stored isStored), isStats⟩
      · exact ⟨Or.inr ⟨some, why, refused isFailed⟩, isStats⟩
  | failed reason =>
      obtain isSender | isEnd | ⟨why, isFailed, isReason⟩ | some := knows
      · exact Or.inl isSender
      · exact Or.inr (Or.inl isEnd)
      · exact Or.inr (Or.inr (Or.inl ⟨why, refused isFailed, isReason⟩))
      · exact Or.inr (Or.inr (Or.inr some))

/-- What is known about a send that has returned stays so. -/
theorem knows_of_sender
    {sender : DirectorySender} (cli : DirectoryCli)
    (knows : session.Knows cli)
    (active : session.sender.isActive = true) :
    DirectorySession.Knows { session with sender := sender } cli := by
  have notDone : session.sender.phase ≠ .done := by
    intro isDone
    simp [DirectorySender.isActive, isDone] at active
  have notFailed (reason : String) :
      session.sender.phase ≠ .failed reason := by
    intro isFailed
    simp [DirectorySender.isActive, isFailed] at active
  cases cli with
  | racing taken => trivial
  | acknowledged ack => exact knows
  | sent stats => exact absurd knows.1 notDone
  | completed stats ack =>
      obtain ⟨stored, ⟨isDone, -⟩ | isStats⟩ := knows
      · exact absurd isDone notDone
      · exact ⟨stored, Or.inr isStats⟩
  | failed reason =>
      obtain isSender | others := knows
      · exact absurd isSender (notFailed reason)
      · exact Or.inr others

/-- Reading the acknowledgement tells what the reception has returned. -/
theorem DirectorySession.Holds.outcome
    (holds : session.Holds tree profile checksum base destination)
    (linkFree : destination.LinkFree) (count : Nat) :
    (∀ ack, readDirectoryAck ((session.ack.getD []).take count) = .ok ack →
        session.Stored ack) ∧
      ∀ reason,
        readDirectoryAck ((session.ack.getD []).take count) =
            .error reason →
          session.Explains reason := by
  cases isAck : session.ack with
  | none =>
      refine ⟨?_, ?_⟩
      · intro ack read
        rw [Option.getD_none, List.take_nil] at read
        cases read
      · intro reason read
        rw [Option.getD_none, List.take_nil] at read
        cases read
        exact Or.inr (Or.inl (by decide))
  | some bytes =>
      obtain ⟨result, isResult, rfl⟩ := holds.acks bytes isAck
      have fits : ∀ stats, result = .ok stats → stats.Fits := by
        intro stats isOk
        rw [isOk, DirectoryReceiver.result?] at isResult
        split at isResult
        · rename_i isDone
          cases isResult
          obtain failed | ⟨labels, run⟩ := holds.receives
          · rw [isDone] at failed
            cases failed
          · obtain ⟨stream, isPart, -⟩ := holds.sends.announced
            have arrived := (List.take_prefix session.arrived _).trans isPart
            rw [(whole_of_done linkFree arrived run isDone).2.1]
            exact statsOf_fits stream.frames
        · cases isResult
        · cases isResult
      have outcome := readDirectoryAck_take fits count
      rw [Option.getD_some]
      generalize readDirectoryAck _ = read at outcome ⊢
      rw [DirectoryReceiver.result?] at isResult
      cases outcome with
      | missing result =>
          refine ⟨(fun ack isOk => by cases isOk), ?_⟩
          intro reason isError
          cases isError
          exact Or.inr (Or.inl (by decide))
      | cut result =>
          refine ⟨(fun ack isOk => by cases isOk), ?_⟩
          intro reason isError
          cases isError
          exact Or.inr (Or.inl (by decide))
      | stored stats =>
          refine ⟨?_, fun reason isError => by cases isError⟩
          intro ack isOk
          cases isOk
          split at isResult
          · rename_i isDone
            cases isResult
            exact ⟨isDone, rfl⟩
          · cases isResult
          · cases isResult
      | rejected why =>
          refine ⟨(fun ack isOk => by cases isOk), ?_⟩
          intro reason isError
          cases isError
          split at isResult
          · cases isResult
          · rename_i isFailed
            cases isResult
            exact Or.inr (Or.inr (Or.inl ⟨why, isFailed, rfl⟩))
          · cases isResult

/-- What is behind the dropped bytes can be read as a good acknowledgement
only if the receiver has failed. -/
theorem DirectorySession.Holds.behindDropped
    (holds : session.Holds tree profile checksum base destination)
    (some : 0 < session.dropped) {count : Nat}
    {ack : DirectoryTransferStats}
    (read :
      readDirectoryAck
          (((session.ack.getD []).drop session.dropped).take count) =
        .ok ack) :
    session.Misread := by
  have long := length_of_readDirectoryAck read
  rw [List.length_take, List.length_drop] at long
  cases isAck : session.ack with
  | none =>
      rw [isAck, Option.getD_none, List.length_nil] at long
      omega
  | some bytes =>
      obtain ⟨result, isResult, rfl⟩ := holds.acks bytes isAck
      rw [isAck, Option.getD_some] at long
      rw [DirectoryReceiver.result?] at isResult
      split at isResult
      · cases isResult
        have isLength :
            (encodeDirectoryAck (.ok session.receiver.stats)).length = 17 := by
          simp [encodeDirectoryAck, length_toBigEndian]
        omega
      · rename_i why isFailed
        exact ⟨some, why, isFailed⟩
      · cases isResult

theorem holds_start
    (tree : SourceTree) (profile : StorageProfile) (checksum : Bool)
    (base : Location) (destination : FileTree) :
    (DirectorySession.start tree profile checksum destination).Holds tree
      profile checksum base destination where
  sends := ⟨rfl, announced_nil tree checksum⟩
  within := Nat.le_refl 0
  receives := Or.inr ⟨[], Run.refl _⟩
  acks bytes isAck := by cases isAck
  knows := trivial

theorem DirectorySession.Holds.write
    (holds : session.Holds tree profile checksum base destination)
    (plain : tree.NoBackslash) (fits : tree.listing.stats.Fits)
    {label : DirectoryWriteLabel} {sender : DirectorySender}
    (taken :
      directoryWriteStep tree.name session.sender label = some sender) :
    DirectorySession.Holds tree profile checksum base destination
      { session with sender := sender } := by
  obtain ⟨sends, isPrefix⟩ := sendsPart_write plain fits holds.sends taken
  have same :
      sender.written.take session.arrived =
        session.sender.written.take session.arrived := by
    obtain ⟨rest, isRest⟩ := isPrefix
    rw [← isRest, List.take_append_of_le_length holds.within]
  refine
    { sends := sends
      within := Nat.le_trans holds.within isPrefix.length_le
      receives := ?_
      acks := holds.acks
      knows :=
        knows_of_sender session.cli holds.knows (active_of_writeStep taken) }
  simp only [same]
  exact holds.receives

theorem DirectorySession.Holds.arrive
    (holds : session.Holds tree profile checksum base destination)
    {count : Nat} (arrived : session.arrive count = some next) :
    next.Holds tree profile checksum base destination := by
  rw [DirectorySession.arrive] at arrived
  split at arrived
  · rename_i within
    cases arrived
    refine
      { sends := holds.sends
        within := within
        receives := ?_
        acks := holds.acks
        knows :=
          knows_of_receiver session.cli holds.knows
            (fun _ => ⟨rfl, rfl⟩) }
    obtain failed | ⟨labels, run⟩ := holds.receives
    · exact Or.inl failed
    · by_cases failed : session.receiver.phase.isFailed = true
      · exact Or.inl failed
      · obtain ⟨others, fed⟩ :=
          feed_run
            ((session.sender.written.drop session.arrived).take count) run
            (by simpa using failed)
        refine Or.inr ⟨others, ?_⟩
        rw [List.take_add]
        exact fed
  · cases arrived

theorem DirectorySession.Holds.receive
    (holds : session.Holds tree profile checksum base destination)
    {label : DirectoryReceiveLabel} {receiver : DirectoryReceiver}
    (taken :
      directoryReceiveStep base session.receiver label = some receiver) :
    DirectorySession.Holds tree profile checksum base destination
      { session with receiver := receiver } := by
  have waiting := result_of_receiveStep taken
  refine
    { sends := holds.sends
      within := holds.within
      receives := ?_
      acks := ?_
      knows :=
        knows_of_receiver session.cli holds.knows
          (fun returned => absurd waiting returned) }
  · obtain failed | ⟨labels, run⟩ := holds.receives
    · rw [not_step_of_failed failed] at taken
      cases taken
    · exact
        Or.inr
          ⟨labels ++ [label], run.append (Run.single trivial taken)⟩
  · intro bytes isAck
    obtain ⟨result, isResult, -⟩ := holds.acks bytes isAck
    rw [waiting] at isResult
    cases isResult

/-- The sending side moves on. -/
theorem DirectorySession.Holds.withCli
    (holds : session.Holds tree profile checksum base destination)
    {cli : DirectoryCli} (knows : session.Knows cli) :
    (session.withCli cli).Holds tree profile checksum base destination where
  sends := holds.sends
  within := holds.within
  receives := holds.receives
  acks := holds.acks
  knows := by
    cases cli <;> exact knows

theorem DirectorySession.Holds.takeAck
    (holds : session.Holds tree profile checksum base destination)
    {count : Nat} (taken : session.takeAck count = some next) :
    next.Holds tree profile checksum base destination := by
  rw [DirectorySession.takeAck] at taken
  split at taken
  · split at taken
    · cases taken
      exact holds.withCli trivial
    · cases taken
  · cases taken

theorem DirectorySession.Holds.readAck
    (holds : session.Holds tree profile checksum base destination)
    (linkFree : destination.LinkFree) {count : Nat}
    (read : session.readAck count = some next) :
    next.Holds tree profile checksum base destination := by
  obtain ⟨stored, explains⟩ := holds.outcome linkFree count
  have knows := holds.knows
  rw [DirectorySession.readAck] at read
  split at read
  · split at read
    · split at read
      · rename_i ack isOk
        cases read
        exact holds.withCli (stored ack isOk)
      · rename_i reason isError
        cases read
        exact holds.withCli (explains reason isError)
    · cases read
  · rename_i stats isSent
    rw [isSent] at knows
    by_cases isWhole : session.dropped = 0
    · rw [isWhole, List.drop_zero] at read
      split at read
      · rename_i ack isOk
        cases read
        exact holds.withCli ⟨Or.inl (stored ack isOk), Or.inl knows⟩
      · rename_i reason isError
        cases read
        exact holds.withCli (explains reason isError)
    · have some := Nat.pos_of_ne_zero isWhole
      split at read
      · rename_i ack isOk
        cases read
        exact
          holds.withCli
            ⟨Or.inr (holds.behindDropped some isOk), Or.inl knows⟩
      · cases read
        exact holds.withCli (Or.inr (Or.inr (Or.inr some)))
  · cases read

theorem DirectorySession.Holds.ackAborted
    (holds : session.Holds tree profile checksum base destination)
    {abort : StreamAbort} (aborted : session.ackAborted abort = some next) :
    next.Holds tree profile checksum base destination := by
  have knows : session.Knows (.failed abort.text) :=
    Or.inr (Or.inl (by cases abort <;> decide))
  rw [DirectorySession.ackAborted] at aborted
  split at aborted
  · cases aborted
    exact holds.withCli knows
  · cases aborted
    exact holds.withCli knows
  · cases aborted

theorem DirectorySession.Holds.sendEnds
    (holds : session.Holds tree profile checksum base destination)
    (ended : session.sendEnds = some next) :
    next.Holds tree profile checksum base destination := by
  have knows := holds.knows
  rw [DirectorySession.sendEnds] at ended
  split at ended
  · rename_i taken isRacing isDone
    cases ended
    exact
      { sends := holds.sends
        within := holds.within
        receives := holds.receives
        acks := holds.acks
        knows := ⟨isDone, rfl⟩ }
  · rename_i ack isAcknowledged isDone
    cases ended
    rw [isAcknowledged] at knows
    exact holds.withCli ⟨Or.inl knows, Or.inl ⟨isDone, rfl⟩⟩
  · rename_i taken reason isRacing isFailed
    cases ended
    exact holds.withCli (Or.inl isFailed)
  · rename_i ack reason isAcknowledged isFailed
    cases ended
    exact holds.withCli (Or.inl isFailed)
  · cases ended

theorem DirectorySession.Holds.timeout
    (holds : session.Holds tree profile checksum base destination)
    (late : session.timeout = some next) :
    next.Holds tree profile checksum base destination := by
  have knows := holds.knows
  rw [DirectorySession.timeout] at late
  split at late
  · rename_i ack isAcknowledged
    cases late
    rw [isAcknowledged] at knows
    exact holds.withCli ⟨Or.inl knows, Or.inr rfl⟩
  · cases late

theorem DirectorySession.Holds.step
    (holds : session.Holds tree profile checksum base destination)
    (plain : tree.NoBackslash) (fits : tree.listing.stats.Fits)
    (linkFree : destination.LinkFree) {label : DirectorySessionLabel}
    (stepped :
      directorySessionStep tree.name base session label = some next) :
    next.Holds tree profile checksum base destination := by
  cases label with
  | write label =>
      obtain ⟨sender, taken, rfl⟩ := Option.map_eq_some_iff.mp stepped
      exact holds.write plain fits taken
  | arrive count => exact holds.arrive stepped
  | receive label =>
      obtain ⟨receiver, taken, rfl⟩ := Option.map_eq_some_iff.mp stepped
      exact holds.receive taken
  | acknowledge =>
      rw [directorySessionStep] at stepped
      split at stepped
      · obtain ⟨result, isResult, rfl⟩ := Option.map_eq_some_iff.mp stepped
        refine
          { sends := holds.sends
            within := holds.within
            receives := holds.receives
            acks := ?_
            knows := ?_ }
        · intro bytes isAck
          cases isAck
          exact ⟨result, isResult, rfl⟩
        · have knows := holds.knows
          cases isCli : session.cli <;> rw [isCli] at knows <;> exact knows
      · cases stepped
  | takeAck count => exact holds.takeAck stepped
  | ackAborted abort => exact holds.ackAborted stepped
  | readAck count => exact holds.readAck linkFree stepped
  | sendEnds => exact holds.sendEnds stepped
  | timeout => exact holds.timeout stepped

theorem holds_of_run
    (plain : tree.NoBackslash) (fits : tree.listing.stats.Fits)
    (linkFree : destination.LinkFree)
    {labels : List DirectorySessionLabel}
    (run :
      Run (directorySessionStep tree.name base) anyStep
        (.start tree profile checksum destination) labels session) :
    session.Holds tree profile checksum base destination :=
  run.preserves
    (fun session => session.Holds tree profile checksum base destination)
    (fun _ _ _ holds _ stepped => holds.step plain fits linkFree stepped)
    (holds_start tree profile checksum base destination)

end Holding


/-! ## Both outcomes -/

theorem completed_of_exit
    {table : Lowercase} {cli : DirectoryCli}
    (exits : cli.exitCode table = some 0) :
    ∃ stats ack, cli = .completed stats ack := by
  cases cli with
  | completed stats ack => exact ⟨stats, ack, rfl⟩
  | failed reason =>
      have isCode : classifyErrorMessage table reason = 0 :=
        Option.some.inj exits
      exact absurd isCode (classOf_ne_zero _)
  | racing taken => cases exits
  | acknowledged ack => cases exits
  | sent stats => cases exits

section Outcomes

variable {tree : SourceTree} {profile : StorageProfile} {checksum : Bool}
  {base : Location} {destination : FileTree}
  {labels : List DirectorySessionLabel} {session : DirectorySession}

theorem childLocation_root
    (plain : tree.NoBackslash) {rootName : String}
    (isRoot : tree.name.text = some rootName) (base : Location) :
    childLocation base rootName = base ++ [rootName] := by
  have noDrive : ¬Platform.unix.HasDrive rootName := by
    rintro ⟨isWindows, _⟩
    cases isWindows
  rw [childLocation, Platform.parse_of_no_drive (plain.root _ isRoot) noDrive,
    components_of_normal (tree.name.legal _ isRoot)]
  rfl

theorem listing_once (tree : SourceTree) :
    (tree.listing.map Prod.fst).Nodup :=
  nodup_listing tree.distinct

/-- The reception that is done has all of the source. -/
theorem mirrors_of_done
    (holds : session.Holds tree profile checksum base destination)
    (plain : tree.NoBackslash) (linkFree : destination.LinkFree)
    (unused :
      ∀ rootName, tree.name.text = some rootName →
        StagingUnused (base ++ [rootName]) tree.listing destination)
    (isDone : session.receiver.phase = .done) :
    ∃ rootName frames, tree.name.text = some rootName ∧
      describedBy frames = tree.listing ∧
        session.receiver.stats = statsOf frames ∧
          Mirrors (base ++ [rootName]) tree.listing destination
            session.receiver.tree := by
  obtain failed | ⟨received, run⟩ := holds.receives
  · rw [isDone] at failed
    cases failed
  obtain ⟨stream, isPart, describes⟩ := holds.sends.announced
  have arrived := (List.take_prefix session.arrived _).trans isPart
  obtain ⟨isWhole, isStats, isTree⟩ :=
    whole_of_done linkFree arrived run isDone
  have isWritten : session.sender.written = stream.bytes := by
    apply isPart.eq_of_length_le
    rw [← isWhole]
    exact List.length_take_le' _ _
  obtain ⟨isRoot, isListing, -⟩ := describes isWritten
  have isLocation := childLocation_root plain isRoot base
  have parents : (describedBy stream.frames).ParentsFirst := by
    rw [isListing]
    exact parentsFirst_listing tree.entries
  have harmless :
      StagingHarmless (stream.root base)
        (stream.rootedTree base destination) stream.frames := by
    rw [stagingHarmless_rooted]
    apply harmless_of_unused parents
    rw [isListing, DirectoryStream.root, isLocation]
    exact unused _ isRoot
  rw [(receivedByAll_eq_updatedByAll_iff _ _).mpr harmless] at isTree
  have mirrors :=
    @mirrors_updatedByAll (stream.root base) destination stream.frames
      (by
        rw [isListing]
        exact listing_once tree)
      parents
  rw [isListing, DirectoryStream.root, isLocation] at mirrors
  refine ⟨stream.rootName, stream.frames, isRoot, isListing, isStats, ?_⟩
  rw [isTree, DirectoryStream.rootedTree, DirectoryStream.root, isLocation]
  exact mirrors

theorem statsOf_listing
    {frames : List DirectoryFrame} {listing : Listing}
    (fits : listing.stats.Fits) (isListing : describedBy frames = listing) :
    (statsOf frames).files = listing.stats.files ∧
      (statsOf frames).bytes = listing.stats.bytes := by
  obtain ⟨isFiles, -, isBytes⟩ := statsOf_eq frames
  rw [isListing] at isFiles isBytes
  rw [isFiles, isBytes, Nat.mod_eq_of_lt fits.1, Nat.mod_eq_of_lt fits.2.2]
  exact ⟨rfl, rfl⟩

/-- A send that is done has counted the source. -/
theorem stats_of_sent
    (holds : session.Holds tree profile checksum base destination)
    (plain : tree.NoBackslash) (fits : tree.listing.stats.Fits)
    (isDone : session.sender.phase = .done) :
    session.sender.stats.files = tree.listing.stats.files ∧
      session.sender.stats.bytes = tree.listing.stats.bytes := by
  have sends := holds.sends.sends
  rw [SendsTree, isDone] at sends
  obtain ⟨isEmpty, wrote⟩ := sends
  rw [wrote.counted]
  exact statsOf_listing fits (describedBy_eq wrote isEmpty plain.entries)

/-- A directory transfer that exits with 0 has left all of the source at the
destination, and both sides have counted the same; or the receiver has failed,
and what is behind the dropped bytes of its acknowledgement was read as
another one. -/
theorem directory_session_mirrors
    (plain : tree.NoBackslash) (fits : tree.listing.stats.Fits)
    (linkFree : destination.LinkFree)
    (unused :
      ∀ rootName, tree.name.text = some rootName →
        StagingUnused (base ++ [rootName]) tree.listing destination)
    (run :
      Run (directorySessionStep tree.name base) anyStep
        (.start tree profile checksum destination) labels session)
    {table : Lowercase} (exits : session.cli.exitCode table = some 0) :
    (∃ rootName stats ack, tree.name.text = some rootName ∧
      session.cli = .completed stats ack ∧
        session.receiver.phase = .done ∧
          Mirrors (base ++ [rootName]) tree.listing destination
              session.receiver.tree ∧
            (stats.files = tree.listing.stats.files ∧
              stats.bytes = tree.listing.stats.bytes) ∧
              ack.files = tree.listing.stats.files ∧
                ack.bytes = tree.listing.stats.bytes) ∨
      session.Misread := by
  have holds := holds_of_run plain fits linkFree run
  obtain ⟨stats, ack, isCli⟩ := completed_of_exit exits
  have knows := holds.knows
  rw [isCli] at knows
  obtain ⟨⟨isDone, isAck⟩ | misread, isStats⟩ := knows
  · left
    obtain ⟨rootName, frames, isRoot, isListing, received, mirrors⟩ :=
      mirrors_of_done holds plain linkFree unused isDone
    have counted := statsOf_listing fits isListing
    rw [← received] at counted
    have acknowledged :
        ack.files = tree.listing.stats.files ∧
          ack.bytes = tree.listing.stats.bytes := by
      rw [isAck]
      exact counted
    refine
      ⟨rootName, stats, ack, isRoot, isCli, isDone, mirrors, ?_,
        acknowledged⟩
    obtain ⟨isSent, rfl⟩ | rfl := isStats
    · exact stats_of_sent holds plain fits isSent
    · exact acknowledged
  · right
    exact misread

end Outcomes

/-! ## A session of the nested tree -/

def nestedSession : List DirectorySessionLabel :=
  [.write (.next .openStream), .arrive 20, .receive .openStream,
      .receive (.createRoot (fun _ => false) false),
      .receive .readFrame] ++
    List.replicate 8 (.write (.next (.turn "/source" fun _ => 0))) ++
    [.arrive 109] ++
    ([.readFrame, .makeDirectory false, .readFrame,
        .makeDirectory false, .makeDirectory false, .readFrame,
        .makeDirectory false, .createStaging false false,
        .copyChunk 2 none, .finishContent false false,
        .renameStaging false, .readFrame, .createStaging false false,
        .copyChunk 1 none, .finishContent false false,
        .renameStaging false, .readFrame,
        .readFrame] : List DirectoryReceiveLabel).map .receive ++
    [.acknowledge, .takeAck 9, .readAck 17, .timeout]

theorem nestedTree_plain : nestedTree.NoBackslash where
  root text isText := by
    cases isText
    decide +kernel
  entries path item isHeld := by
    have plainNames :
        ∀ entry ∈ nestedTree.listing, ∀ name ∈ entry.1,
          '\\' ∉ name.toList := by
      decide +kernel
    exact plainNames (path, item) (mem_listing_iff.mpr isHeld)

theorem nestedTree_unused :
    StagingUnused (["home"] ++ ["source"]) nestedTree.listing
      emptyHome := by
  have visible :
      ∀ entry ∈ nestedTree.listing,
        (entry.1.getLast?.map fun name => name.toList.head?) ≠
          some (some '.') := by
    decide +kernel
  intro parent name content member notOwn
  refine ⟨?_, ?_⟩
  · have notHome :
        ["home"] ++ ["source"] ++ parent ++ [stagingName name] ≠
          ["home"] := by
      intro same
      have lengths := congrArg List.length same
      simp at lengths
    rw [emptyHome, if_neg notHome]
  · intro item listed
    apply visible _ listed
    simp [stagingName]

/-- The nested tree is there, although the sending side has not waited for the
end of its send. -/
theorem directory_session_mirrors_nested :
    ∃ session,
      Run (directorySessionStep nestedTree.name ["home"]) anyStep
          (.start nestedTree .hdd false emptyHome) nestedSession session ∧
        session.cli.exitCode .least = some 0 ∧
          Mirrors (["home"] ++ ["source"]) nestedTree.listing emptyHome
            session.receiver.tree := by
  have ran :
      (replay (directorySessionStep nestedTree.name ["home"])
          (.start nestedTree .hdd false emptyHome) nestedSession).map
          (fun session => (session.cli, session.dropped)) =
        some (.completed ⟨2, 0, 3, 0⟩ ⟨2, 0, 3, 0⟩, 0) := by
    decide +kernel
  obtain ⟨session, reached, same⟩ := Option.map_eq_some_iff.mp ran
  obtain ⟨isCli, isDropped⟩ := Prod.mk.inj same
  have run := run_of_replay reached
  have exits : session.cli.exitCode .least = some 0 := by
    rw [isCli]
    rfl
  have unused :
      ∀ rootName, nestedTree.name.text = some rootName →
        StagingUnused (["home"] ++ [rootName]) nestedTree.listing
          emptyHome := by
    intro rootName isRoot
    cases isRoot
    exact nestedTree_unused
  obtain ⟨rootName, stats, ack, isRoot, -, -, mirrors, -⟩ | ⟨some, -⟩ :=
    directory_session_mirrors nestedTree_plain (by decide +kernel)
      emptyHome_linkFree unused run exits
  · cases isRoot
    exact ⟨session, run, exits, mirrors⟩
  · rw [isDropped] at some
    cases some

end Quiczilla
