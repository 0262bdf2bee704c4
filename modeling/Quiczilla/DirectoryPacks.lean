import Mathlib.Data.List.ModifyLast
import Quiczilla.DirectoryApply
import Quiczilla.DirectoryWalk
import Quiczilla.Foundation.NextFit

/-!
# The packs of a directory transfer

`send_directory` marks off the files in packs as next-fit packing does, with
the sizes of the files as weights.  The numbers of the packs and their count
are 64-bit numbers, which wrap.
-/

namespace Quiczilla

open Foundation

/-! ## Packs in a list of frames -/

/-- The frames that mark off packs. -/
inductive PackMark where
  | start (pack : Nat)
  | stop
  deriving DecidableEq, Repr

def DirectoryFrame.packMark? : DirectoryFrame → Option PackMark
  | .packStart pack => some (.start pack)
  | .packEnd => some .stop
  | _ => none

def packMarks (frames : List DirectoryFrame) : List PackMark :=
  frames.filterMap DirectoryFrame.packMark?

/-- The marks of so many packs, numbered from 0. -/
def alternatingMarks (count : Nat) : List PackMark :=
  (List.range count).flatMap fun pack => [.start (pack % 2 ^ 64), .stop]

/-- What a frame adds to the sizes of the files in the packs. -/
def addToPacks (packs : List (List Nat)) :
    DirectoryFrame → List (List Nat)
  | .packStart _ => packs ++ [[]]
  | .file _ content _ _ =>
      packs.modifyLast fun sizes => sizes ++ [content.length]
  | _ => packs

/-- The sizes of the files in each pack. -/
def packsOf (frames : List DirectoryFrame) : List (List Nat) :=
  frames.foldl addToPacks []

theorem packMarks_append (frames : List DirectoryFrame)
    (frame : DirectoryFrame) :
    packMarks (frames ++ [frame]) =
      packMarks frames ++ frame.packMark?.toList := by
  rw [packMarks, List.filterMap_append]
  cases marked : frame.packMark? <;> simp [packMarks, marked]

theorem packsOf_append (frames : List DirectoryFrame)
    (frame : DirectoryFrame) :
    packsOf (frames ++ [frame]) = addToPacks (packsOf frames) frame := by
  rw [packsOf, List.foldl_append]
  rfl

theorem alternatingMarks_succ (count : Nat) :
    alternatingMarks (count + 1) =
      alternatingMarks count ++ [.start (count % 2 ^ 64), .stop] := by
  simp [alternatingMarks, List.range_succ]

theorem length_addToPacks
    (packs : List (List Nat)) (frame : DirectoryFrame) :
    (addToPacks packs frame).length =
      packs.length + if frame.isPackStart then 1 else 0 := by
  cases frame with
  | file relative content flag digest =>
      obtain rfl | ⟨closed, current, rfl⟩ := packs.eq_nil_or_concat
      · rfl
      · rw [List.concat_eq_append, addToPacks, List.modifyLast_concat]
        simp [DirectoryFrame.isPackStart]
  | packStart pack => simp [addToPacks, DirectoryFrame.isPackStart]
  | packEnd => rfl
  | directory relative => rfl

/-- There is a pack for every frame that starts one. -/
theorem length_packsOf (frames : List DirectoryFrame) :
    (packsOf frames).length =
      frames.countP DirectoryFrame.isPackStart := by
  induction frames using List.reverseRecOn with
  | nil => rfl
  | append_singleton frames frame inductionHypothesis =>
      rw [packsOf_append, length_addToPacks, inductionHypothesis,
        List.countP_append, List.countP_singleton]

/-! ## The packs that are written -/

/-- A length is a 64-bit number. -/
def SourceEntries.SizesFit : SourceEntries → Prop
  | .done => True
  | .file _ size _ rest => size < 2 ^ 64 ∧ rest.SizesFit
  | .directory _ below rest => below.SizesFit ∧ rest.SizesFit
  | .symlink _ rest => rest.SizesFit
  | .special _ rest => rest.SizesFit

/-- The frames mark off the packs of the packing, and the last of them is
open. -/
structure MarksOff (frames : List DirectoryFrame) (packing : Packing Nat) :
    Prop where
  packs : packsOf frames = packing.packs
  marks :
    packMarks frames ++ [.stop] = alternatingMarks packing.packs.length

/-- A START frame and these frames, all of them well-formed. -/
def StreamOf (written : List UInt8) (frames : List DirectoryFrame)
    (ending : List UInt8) : Prop :=
  (∃ wire, validateRelativePath .unix wire = .ok () ∧
      written = encodeStart wire ++ (encodeFrames frames ++ ending)) ∧
    ∀ frame ∈ frames, frame.WellFormed

/-- A sender between two turns, and the packing of the files it has sent. -/
structure WritesPacks
    (profile : StorageProfile) (sender : DirectorySender)
    (packing : Packing Nat) : Prop where
  target : sender.target = profile.packTargetBytes
  marksOff : MarksOff sender.frames packing
  counted : sender.stats.packs = packing.packs.length % 2 ^ 64
  number : sender.packNumber = packing.closed.length % 2 ^ 64
  bytes : sender.packBytes = packing.current.sum
  fits : packing.Fits profile.packTargetBytes
  sizes : ∀ level ∈ sender.stack, level.2.SizesFit
  stream : StreamOf sender.written sender.frames []

/-- What is recorded of the packs, in every phase. -/
structure RecordsPacks (target : Nat) (sender : DirectorySender) : Prop where
  alternating :
    packMarks sender.frames =
        alternatingMarks (sender.frames.countP DirectoryFrame.isPackStart) ∨
      sender.phase ≠ .done ∧
        packMarks sender.frames ++ [.stop] =
          alternatingMarks
            (sender.frames.countP DirectoryFrame.isPackStart)
  counted :
    sender.phase = .done ∨
        sender.frames.countP DirectoryFrame.isPackStart ≠ 0 →
      sender.stats.packs =
        sender.frames.countP DirectoryFrame.isPackStart % 2 ^ 64
  fits : ∀ pack ∈ packsOf sender.frames, FitsPack target pack

/-- What holds of a sender in its phase. -/
def SendsPacks (profile : StorageProfile) (sender : DirectorySender) :
    Prop :=
  match sender.phase with
  | .opening =>
      ∃ entries checksum, entries.SizesFit ∧
        sender = .start entries profile checksum
  | .walking => ∃ packing, WritesPacks profile sender packing
  | .done =>
      RecordsPacks profile.packTargetBytes sender ∧
        StreamOf sender.written sender.frames (encodeEnd sender.stats)
  | .failed _ => RecordsPacks profile.packTargetBytes sender

section Frames

variable {frames : List DirectoryFrame} {packing : Packing Nat}

theorem length_packs (packing : Packing Nat) :
    packing.packs.length = packing.closed.length + 1 := by
  rw [Packing.packs, List.length_append, List.length_singleton]

theorem MarksOff.count
    (marksOff : MarksOff frames packing) :
    frames.countP DirectoryFrame.isPackStart = packing.packs.length := by
  rw [← length_packsOf, marksOff.packs]

theorem MarksOff.directory
    (marksOff : MarksOff frames packing) (relative : String) :
    MarksOff (frames ++ [.directory relative]) packing where
  packs := by
    rw [packsOf_append]
    exact marksOff.packs
  marks := by
    rw [packMarks_append]
    simpa [DirectoryFrame.packMark?] using marksOff.marks

theorem MarksOff.file
    (marksOff : MarksOff frames packing) (relative : String)
    (content : List UInt8) (flag : UInt8) (digest : List UInt8) :
    MarksOff (frames ++ [.file relative content flag digest])
      (packing.put content.length) where
  packs := by
    rw [packsOf_append, marksOff.packs, Packing.packs, addToPacks,
      List.modifyLast_concat]
    rfl
  marks := by
    have sameCount :
        (packing.put content.length).packs.length =
          packing.packs.length := by
      rw [length_packs, length_packs, Packing.put]
    rw [packMarks_append, sameCount]
    simpa [DirectoryFrame.packMark?] using marksOff.marks

/-- One pack ends and the next one starts. -/
theorem MarksOff.roll
    (marksOff : MarksOff frames packing) {pack : Nat}
    (isNumber : pack = packing.packs.length % 2 ^ 64) :
    MarksOff (frames ++ [.packEnd] ++ [.packStart pack])
      ⟨packing.packs, []⟩ where
  packs := by
    rw [packsOf_append, packsOf_append, marksOff.packs]
    rfl
  marks := by
    have opened :
        packMarks (frames ++ [.packEnd] ++ [.packStart pack]) =
          packMarks frames ++ [.stop] ++ [.start pack] := by
      rw [packMarks_append, packMarks_append]
      rfl
    rw [opened, marksOff.marks, length_packs ⟨packing.packs, []⟩,
      alternatingMarks_succ, isNumber, List.append_assoc]
    rfl

theorem MarksOff.start :
    MarksOff [.packStart 0] (Packing.empty : Packing Nat) where
  packs := rfl
  marks := rfl

/-- One more frame is written. -/
theorem StreamOf.write
    {written : List UInt8} (stream : StreamOf written frames [])
    {frame : DirectoryFrame} (wellFormed : frame.WellFormed) :
    StreamOf (written ++ frame.encode) (frames ++ [frame]) [] := by
  obtain ⟨⟨wire, accepted, isWritten⟩, areWellFormed⟩ := stream
  refine ⟨⟨wire, accepted, ?_⟩, ?_⟩
  · rw [isWritten, encodeFrames_append]
    simp
  · intro other member
    obtain earlier | isLast := List.mem_append.mp member
    · exact areWellFormed other earlier
    · rw [List.mem_singleton.mp isLast]
      exact wellFormed

theorem packTargetBytes_lt (profile : StorageProfile) :
    profile.packTargetBytes < 2 ^ 64 - 1 := by
  cases profile <;> decide

/-- No sum that fits is taken for one that overfills, and the other way
round. -/
theorem target_lt_saturatingAdd
    (profile : StorageProfile) (first second : Nat) :
    profile.packTargetBytes <
        DirectorySender.saturatingAdd first second ↔
      profile.packTargetBytes < first + second := by
  have small := packTargetBytes_lt profile
  rw [DirectorySender.saturatingAdd, lt_min_iff]
  exact and_iff_left small

end Frames

/-! ## The turns of the sender -/

section Writing

variable {profile : StorageProfile} {sender next : DirectorySender}
  {packing : Packing Nat}

theorem RecordsPacks.fail
    {target : Nat} (records : RecordsPacks target sender)
    (reason : String) : RecordsPacks target (sender.fail reason) where
  alternating := by
    rcases records.alternating with closed | ⟨-, opened⟩
    · exact Or.inl closed
    · exact Or.inr ⟨by simp [DirectorySender.fail], opened⟩
  counted := by
    rintro (finished | opened)
    · cases finished
    · exact records.counted (Or.inr opened)
  fits := records.fits

/-- Before the first frame there is no pack. -/
theorem RecordsPacks.start
    (target : Nat) (entries : SourceEntries) (checksum : Bool) :
    RecordsPacks target (.start entries profile checksum) where
  alternating := Or.inl rfl
  counted := by
    rintro (finished | opened)
    · cases finished
    · exact absurd rfl opened
  fits := by
    intro pack member
    cases member

/-- Between two turns the last pack is open. -/
theorem WritesPacks.records
    (holds : WritesPacks profile sender packing)
    (unfinished : sender.phase ≠ .done) :
    RecordsPacks profile.packTargetBytes sender where
  alternating := by
    refine Or.inr ⟨unfinished, ?_⟩
    rw [holds.marksOff.count]
    exact holds.marksOff.marks
  counted := by
    intro _
    rw [holds.marksOff.count]
    exact holds.counted
  fits := by
    intro pack member
    rw [holds.marksOff.packs] at member
    exact holds.fits pack member

theorem WritesPacks.rollPack
    (holds : WritesPacks profile sender packing) (size : Nat) :
    WritesPacks profile (sender.rollPack size)
      (packing.makeRoom profile.packTargetBytes size) := by
  have sameTest :
      (0 < sender.packBytes ∧
          sender.target <
            DirectorySender.saturatingAdd sender.packBytes size) ↔
        Overfills profile.packTargetBytes packing.current size := by
    rw [holds.target, holds.bytes, target_lt_saturatingAdd]
    rfl
  have roomFits := holds.fits.makeRoom size
  rw [DirectorySender.rollPack, Packing.makeRoom] at *
  by_cases overfills :
      Overfills profile.packTargetBytes packing.current size
  · rw [if_pos (sameTest.mpr overfills), if_pos overfills]
    rw [if_pos overfills] at roomFits
    have isNumber :
        (sender.packNumber + 1) % 2 ^ 64 =
          packing.packs.length % 2 ^ 64 := by
      rw [holds.number, length_packs, Nat.mod_add_mod]
    have fitsField : (sender.packNumber + 1) % 2 ^ 64 < 2 ^ 64 :=
      Nat.mod_lt _ (Nat.two_pow_pos 64)
    have closed : DirectoryFrame.packEnd.WellFormed := trivial
    exact
      { target := holds.target
        marksOff := holds.marksOff.roll isNumber
        counted := by
          change (sender.stats.packs + 1) % 2 ^ 64 = _
          rw [holds.counted, Nat.mod_add_mod,
            length_packs ⟨packing.packs, []⟩]
        number := isNumber
        bytes := rfl
        fits := roomFits
        sizes := holds.sizes
        stream :=
          (holds.stream.write closed).write
            (show (DirectoryFrame.packStart _).WellFormed from
              fitsField) }
  · rw [if_neg (sameTest.not.mpr overfills), if_neg overfills]
    exact holds

theorem WritesPacks.directory
    (holds : WritesPacks profile sender packing) {relative : String}
    (accepted : validateRelativePath .unix relative = .ok ())
    {directories : Nat} {stack : List (List String × SourceEntries)}
    (sizes : ∀ level ∈ stack, level.2.SizesFit) :
    WritesPacks profile
      { sender.write (.directory relative) with
        stack := stack
        stats := { sender.stats with directories := directories } }
      packing where
  target := holds.target
  marksOff := holds.marksOff.directory relative
  counted := holds.counted
  number := holds.number
  bytes := holds.bytes
  fits := holds.fits
  sizes := sizes
  stream :=
    holds.stream.write
      (show (DirectoryFrame.directory relative).WellFormed from accepted)

/-- A file is written into a pack with room for it. -/
theorem WritesPacks.sentFile
    (holds : WritesPacks profile sender packing) {wire : String}
    (accepted : validateRelativePath .unix wire = .ok ())
    {content : List UInt8} (fitsField : content.length < 2 ^ 64)
    (roomy :
      packing.current.sum = 0 ∨
        packing.current.sum + content.length ≤ profile.packTargetBytes) :
    WritesPacks profile (sender.sentFile wire content.length content)
      (packing.put content.length) := by
  have noOverflow :
      packing.current.sum + content.length < 2 ^ 64 := by
    have small := packTargetBytes_lt profile
    have load := Packing.load_le roomy
    omega
  have wellFormed :
      (DirectoryFrame.file wire content (if sender.checksum then 1 else 0)
        (if sender.checksum then sha256 content else [])).WellFormed := by
    refine ⟨accepted, fitsField, ?_⟩
    cases sender.checksum <;> rfl
  have sameCount :
      (packing.put content.length).packs.length =
        packing.packs.length := by
    rw [length_packs, length_packs, Packing.put]
  exact
    { target := holds.target
      marksOff := holds.marksOff.file wire content _ _
      counted := by
        rw [sameCount]
        exact holds.counted
      number := holds.number
      bytes := by
        change (sender.packBytes + content.length) % 2 ^ 64 = _
        rw [holds.bytes, Nat.mod_eq_of_lt noOverflow, Packing.put,
          List.sum_append, List.sum_singleton]
      fits := holds.fits.put roomy
      sizes := holds.sizes
      stream := holds.stream.write wellFormed }

theorem WritesPacks.skip
    (holds : WritesPacks profile sender packing)
    {stack : List (List String × SourceEntries)}
    (sizes : ∀ level ∈ stack, level.2.SizesFit) :
    WritesPacks profile { sender with stack := stack } packing where
  target := holds.target
  marksOff := holds.marksOff
  counted := holds.counted
  number := holds.number
  bytes := holds.bytes
  fits := holds.fits
  sizes := sizes
  stream := holds.stream

/-- The last turn ends the last pack and writes the totals. -/
theorem WritesPacks.finish
    (holds : WritesPacks profile sender packing) :
    SendsPacks profile
      { sender.write .packEnd with
        written :=
          (sender.write .packEnd).written ++ encodeEnd sender.stats
        phase := .done } := by
  have closed : DirectoryFrame.packEnd.WellFormed := trivial
  have sameCount :
      (sender.frames ++ [DirectoryFrame.packEnd]).countP
          DirectoryFrame.isPackStart =
        packing.packs.length := by
    rw [List.countP_append, holds.marksOff.count]
    rfl
  refine ⟨⟨Or.inl ?_, ?_, ?_⟩, ?_, ?_⟩
  · change packMarks (sender.frames ++ [.packEnd]) =
      alternatingMarks
        ((sender.frames ++ [DirectoryFrame.packEnd]).countP
          DirectoryFrame.isPackStart)
    rw [sameCount, packMarks_append, ← holds.marksOff.marks]
    rfl
  · intro _
    change
      sender.stats.packs =
        (sender.frames ++ [DirectoryFrame.packEnd]).countP _ % _
    rw [sameCount, holds.counted]
  · intro pack member
    apply holds.fits pack
    change pack ∈ packsOf (sender.frames ++ [.packEnd]) at member
    rw [packsOf_append] at member
    rw [← holds.marksOff.packs]
    exact member
  · obtain ⟨wire, accepted, isWritten⟩ := (holds.stream.write closed).1
    refine ⟨wire, accepted, ?_⟩
    change (sender.written ++ DirectoryFrame.packEnd.encode) ++ _ = _
    rw [isWritten]
    simp [DirectorySender.write]
  · exact (holds.stream.write closed).2

theorem sendsPacks_openStream
    {entries : SourceEntries} (sizes : entries.SizesFit)
    {checksum : Bool} {rootName : EntryName}
    (isStart : sender = .start entries profile checksum) :
    SendsPacks profile (sender.openStream rootName) := by
  have failed (reason : String) :
      SendsPacks profile (sender.fail reason) := by
    subst isStart
    exact (RecordsPacks.start _ entries checksum).fail reason
  rw [DirectorySender.openStream]
  split
  · exact failed _
  · split
    · exact failed _
    · rename_i wire isWire
      obtain ⟨_, accepted⟩ := pathToWire_ok isWire
      subst isStart
      refine
        ⟨.empty,
          { target := rfl
            marksOff := MarksOff.start
            counted := rfl
            number := rfl
            bytes := rfl
            fits := Packing.fits_empty
            sizes := ?_
            stream := ⟨⟨wire, accepted, ?_⟩, ?_⟩ }⟩
      · intro level member
        rw [List.mem_singleton.mp member]
        exact sizes
      · simp [DirectorySender.write, DirectorySender.start, encodeFrames]
      · intro frame member
        rw [List.mem_singleton.mp member]
        exact Nat.two_pow_pos 64

theorem sendsPacks_turn
    (isWalking : sender.phase = .walking)
    (holds : WritesPacks profile sender packing) (source : String)
    (sizes : Nat → Nat) :
    SendsPacks profile (sender.turn source sizes) := by
  have fits := holds.sizes
  have failed (reason : String) :
      SendsPacks profile (sender.fail reason) :=
    (holds.records (by simp [isWalking])).fail reason
  have stays {result : DirectorySender} {resulting : Packing Nat}
      (isPhase : result.phase = sender.phase)
      (writes : WritesPacks profile result resulting) :
      SendsPacks profile result := by
    rw [SendsPacks, isPhase, isWalking]
    exact ⟨resulting, writes⟩
  rw [DirectorySender.turn]
  split
  · exact holds.finish
  · rename_i isStack
    rw [isStack, List.forall_mem_cons] at fits
    exact stays rfl (holds.skip fits.2)
  · rename_i isStack
    rw [isStack, List.forall_mem_cons] at fits
    exact stays rfl (holds.skip (List.forall_mem_cons.mpr fits))
  · rename_i isStack
    rw [isStack, List.forall_mem_cons] at fits
    split
    · exact failed _
    · exact stays rfl (holds.skip (List.forall_mem_cons.mpr fits))
  · rename_i isStack
    rw [isStack, List.forall_mem_cons] at fits
    split
    · exact failed _
    · rename_i accepted
      obtain ⟨_, _, isValid⟩ := entryToWire_ok accepted
      refine stays rfl (holds.directory isValid ?_)
      exact
        List.forall_mem_cons.mpr
          ⟨fits.1.1, List.forall_mem_cons.mpr ⟨fits.1.2, fits.2⟩⟩
  · rename_i parents name size content rest below isStack
    rw [isStack, List.forall_mem_cons] at fits
    obtain ⟨⟨fitsField, restFits⟩, belowFits⟩ := fits
    split
    · exact failed _
    · rename_i accepted
      obtain ⟨_, _, isValid⟩ := entryToWire_ok accepted
      have rolled := holds.rollPack size
      split
      · exact (rolled.records (by simp [isWalking])).fail _
      · rename_i copied copies
        obtain ⟨isCopied, enough⟩ := copyContent_eq copies
        have isLength : copied.length = size := by
          rw [isCopied, List.length_take]
          exact Nat.min_eq_left enough
        have moved :
            WritesPacks profile
              { sender.rollPack size with
                stack := (parents, rest) :: below }
              (packing.makeRoom profile.packTargetBytes size) :=
          rolled.skip (List.forall_mem_cons.mpr ⟨restFits, belowFits⟩)
        have copiedFits : copied.length < 2 ^ 64 := by
          rw [isLength]
          exact fitsField
        have sent :=
          moved.sentFile isValid copiedFits (by
            rw [isLength]
            exact Packing.makeRoom_roomy _ packing size)
        rw [isLength] at sent
        exact stays (rollPack_phase sender size) sent

theorem sendsPacks_failInFile
    (isWalking : sender.phase = .walking)
    (holds : WritesPacks profile sender packing) (reason : String) :
    SendsPacks profile (sender.failInFile reason) := by
  rw [DirectorySender.failInFile]
  split
  · refine ((holds.rollPack _).records ?_).fail reason
    simp [isWalking]
  · exact (holds.records (by simp [isWalking])).fail reason

theorem SendsPacks.records
    (holds : SendsPacks profile sender) :
    RecordsPacks profile.packTargetBytes sender := by
  rw [SendsPacks] at holds
  cases isPhase : sender.phase with
  | opening =>
      rw [isPhase] at holds
      obtain ⟨entries, checksum, -, rfl⟩ := holds
      exact RecordsPacks.start _ entries checksum
  | walking =>
      rw [isPhase] at holds
      obtain ⟨packing, writes⟩ := holds
      exact writes.records (by simp [isPhase])
  | done =>
      rw [isPhase] at holds
      exact holds.1
  | failed reason =>
      rw [isPhase] at holds
      exact holds

theorem sendsPacks_step
    {rootName : EntryName} {label : DirectorySendLabel}
    (holds : SendsPacks profile sender)
    (stepped : directorySendStep rootName sender label = some next) :
    SendsPacks profile next := by
  cases label with
  | openStream =>
      rw [directorySendStep] at stepped
      split at stepped
      · rename_i isOpening
        cases stepped
        rw [SendsPacks, isOpening] at holds
        obtain ⟨entries, checksum, sizes, isStart⟩ := holds
        exact sendsPacks_openStream sizes isStart
      · cases stepped
  | turn source sizes =>
      rw [directorySendStep] at stepped
      split at stepped
      · rename_i isWalking
        cases stepped
        rw [SendsPacks, isWalking] at holds
        obtain ⟨packing, writes⟩ := holds
        exact sendsPacks_turn isWalking writes source sizes
      · cases stepped
  | fault reason =>
      rw [directorySendStep] at stepped
      split at stepped
      · cases stepped
        exact holds.records.fail reason
      · cases stepped
  | faultInFile reason =>
      rw [directorySendStep] at stepped
      split at stepped
      · rename_i isWalking
        cases stepped
        rw [SendsPacks, isWalking] at holds
        obtain ⟨packing, writes⟩ := holds
        exact sendsPacks_failInFile isWalking writes reason
      · cases stepped

theorem sendsPacks_run
    {rootName : EntryName} {entries : SourceEntries} {checksum : Bool}
    (sizes : entries.SizesFit) {labels : List DirectorySendLabel}
    (run :
      Run (directorySendStep rootName) anyStep
        (.start entries profile checksum) labels sender) :
    SendsPacks profile sender :=
  run.preserves (SendsPacks profile)
    (fun _ _ _ holds _ stepped => sendsPacks_step holds stepped)
    ⟨entries, checksum, sizes, rfl⟩

/-! ## When a pack is opened -/

/-- The sizes of the files in the open pack. -/
def currentPack (frames : List DirectoryFrame) : List Nat :=
  (packsOf frames).getLast?.getD []

/-- The next entry is a file that would take the open pack, which is not empty,
past the target. -/
def DirectorySender.NextOverfills (sender : DirectorySender) (target : Nat) :
    Prop :=
  ∃ parents name size content rest below,
    sender.stack = (parents, .file name size content rest) :: below ∧
      Overfills target (currentPack sender.frames) size

theorem MarksOff.currentPack
    {frames : List DirectoryFrame} (marksOff : MarksOff frames packing) :
    currentPack frames = packing.current := by
  simp [Quiczilla.currentPack, marksOff.packs, Packing.packs]

/-- A pack with room stays open. -/
theorem rollPack_frames
    (holds : WritesPacks profile sender packing) {size : Nat}
    (room :
      ¬ Overfills profile.packTargetBytes (currentPack sender.frames)
        size) :
    (sender.rollPack size).frames = sender.frames := by
  rw [holds.marksOff.currentPack] at room
  rw [DirectorySender.rollPack, if_neg]
  rw [holds.target, holds.bytes, target_lt_saturatingAdd]
  exact room

theorem opens_rollPack
    (holds : WritesPacks profile sender packing)
    {parents : List String} {name : EntryName} {size : Nat}
    {content : List UInt8} {rest : SourceEntries}
    {below : List (List String × SourceEntries)}
    (isStack :
      sender.stack = (parents, .file name size content rest) :: below)
    (frames : List DirectoryFrame)
    (noStart : frames.countP DirectoryFrame.isPackStart = 0) :
    ((sender.rollPack size).frames ++ frames).countP
          DirectoryFrame.isPackStart ≤
        sender.frames.countP DirectoryFrame.isPackStart ∨
      sender.NextOverfills profile.packTargetBytes := by
  by_cases overfills :
      Overfills profile.packTargetBytes (currentPack sender.frames) size
  · exact Or.inr ⟨_, _, _, _, _, _, isStack, overfills⟩
  · left
    rw [rollPack_frames holds overfills, List.countP_append, noStart]
    omega

/-- Only a file that does not fit opens a pack. -/
theorem opens_turn
    (holds : WritesPacks profile sender packing) (source : String)
    (sizes : Nat → Nat) :
    (sender.turn source sizes).frames.countP DirectoryFrame.isPackStart ≤
        sender.frames.countP DirectoryFrame.isPackStart ∨
      sender.NextOverfills profile.packTargetBytes := by
  have another (frame : DirectoryFrame)
      (noStart : frame.isPackStart = false) :
      (sender.frames ++ [frame]).countP DirectoryFrame.isPackStart ≤
          sender.frames.countP DirectoryFrame.isPackStart ∨
        sender.NextOverfills profile.packTargetBytes := by
    left
    simp [List.countP_append, noStart]
  rw [DirectorySender.turn]
  split
  · exact another .packEnd rfl
  · exact Or.inl le_rfl
  · exact Or.inl le_rfl
  · split
    · exact Or.inl le_rfl
    · exact Or.inl le_rfl
  · split
    · exact Or.inl le_rfl
    · exact another (.directory _) rfl
  · rename_i isStack
    split
    · exact Or.inl le_rfl
    · split
      · have opens := opens_rollPack holds isStack [] rfl
        rw [List.append_nil] at opens
        exact opens
      · exact opens_rollPack holds isStack [.file _ _ _ _] rfl

theorem opens_failInFile
    (holds : WritesPacks profile sender packing) (reason : String) :
    (sender.failInFile reason).frames.countP DirectoryFrame.isPackStart ≤
        sender.frames.countP DirectoryFrame.isPackStart ∨
      sender.NextOverfills profile.packTargetBytes := by
  rw [DirectorySender.failInFile]
  split
  · rename_i isStack
    have opens := opens_rollPack holds isStack [] rfl
    rw [List.append_nil] at opens
    exact opens
  · exact Or.inl le_rfl

/-- Besides the first one, a pack is opened only for a file that the open pack
has no room for. -/
theorem opens_step
    {rootName : EntryName} {label : DirectorySendLabel}
    (holds : SendsPacks profile sender)
    (stepped : directorySendStep rootName sender label = some next) :
    sender.phase = .opening ∨
      next.frames.countP DirectoryFrame.isPackStart ≤
          sender.frames.countP DirectoryFrame.isPackStart ∨
        sender.NextOverfills profile.packTargetBytes := by
  rw [directorySendStep.eq_def] at stepped
  split at stepped
  · split at stepped
    · rename_i isOpening
      exact Or.inl isOpening
    · cases stepped
  · split at stepped
    · rename_i isWalking
      cases stepped
      rw [SendsPacks, isWalking] at holds
      obtain ⟨packing, writes⟩ := holds
      exact Or.inr (opens_turn writes _ _)
    · cases stepped
  · split at stepped
    · cases stepped
      exact Or.inr (Or.inl le_rfl)
    · cases stepped
  · split at stepped
    · rename_i isWalking
      cases stepped
      rw [SendsPacks, isWalking] at holds
      obtain ⟨packing, writes⟩ := holds
      exact Or.inr (opens_failInFile writes _)
    · cases stepped

/-- The size of a file and what is in its pack fit into 64 bits. -/
theorem packBytes_fits
    (holds : WritesPacks profile sender packing)
    {parents : List String} {name : EntryName} {size : Nat}
    {content : List UInt8} {rest : SourceEntries}
    {below : List (List String × SourceEntries)}
    (isStack :
      sender.stack = (parents, .file name size content rest) :: below) :
    (sender.rollPack size).packBytes + size < 2 ^ 64 := by
  have fits := holds.sizes
  rw [isStack, List.forall_mem_cons] at fits
  have sizeFits : size < 2 ^ 64 := fits.1.1
  have small := packTargetBytes_lt profile
  have load :=
    Packing.load_le
      (Packing.makeRoom_roomy profile.packTargetBytes packing size)
  rw [(holds.rollPack size).bytes]
  omega

end Writing

/-! ## The packs that are counted -/

def FileHead.digestLength (head : FileHead) : Nat :=
  if head.flag = 0 then 0 else 32

/-- The input behind the frame that is being received. -/
def behindFrame (input : List UInt8) : DirectoryReceivePhase → List UInt8
  | .making _ _ _ _ (some head) =>
      input.drop (head.size + head.digestLength)
  | .placing _ _ head => input.drop (head.size + head.digestLength)
  | .copying _ head _ _ copied =>
      input.drop (head.size - copied.length + head.digestLength)
  | _ => input

/-- So many packs are counted of the frames, and these bytes are the others. -/
def CountedUpTo (frames : List DirectoryFrame) (ending : List UInt8)
    (packs : Nat) (behind : List UInt8) : Prop :=
  ∃ before after, frames = before ++ after ∧
    packs = before.countP DirectoryFrame.isPackStart % 2 ^ 64 ∧
      behind = encodeFrames after ++ ending

/-- A receiver that has counted the packs of the frames it has read. -/
def CountsPacks (input ending : List UInt8) (frames : List DirectoryFrame)
    (receiver : DirectoryReceiver) : Prop :=
  match receiver.phase with
  | .opening => receiver.input = input ∧ receiver.stats.packs = 0
  | .creatingRoot _ =>
      receiver.input = encodeFrames frames ++ ending ∧
        receiver.stats.packs = 0
  | .done =>
      receiver.stats.packs =
        frames.countP DirectoryFrame.isPackStart % 2 ^ 64
  | .failed _ => True
  | phase =>
      CountedUpTo frames ending receiver.stats.packs
        (behindFrame receiver.input phase)

section Counting

variable {input ending : List UInt8} {frames : List DirectoryFrame}
  {receiver next : DirectoryReceiver}

theorem countsPacks_fail (reason : String) :
    CountsPacks input ending frames (receiver.fail reason) :=
  trivial

theorem countsPacks_framing
    {root : Location} (isPhase : receiver.phase = .framing root)
    (counted :
      CountedUpTo frames ending receiver.stats.packs receiver.input) :
    CountsPacks input ending frames receiver := by
  rw [CountsPacks, isPhase]
  exact counted

/-- The input behind the file that is awaited. -/
def behindFile (input : List UInt8) : Option FileHead → List UInt8
  | some head => input.drop (head.size + head.digestLength)
  | none => input

theorem countsPacks_enter
    {file : Option FileHead}
    (counted :
      CountedUpTo frames ending receiver.stats.packs
        (behindFile receiver.input file))
    (root current : Location) (names : List String) :
    CountsPacks input ending frames
      (receiver.enter root current names file) := by
  cases names <;> cases file <;> exact counted

theorem countsPacks_createSafeDirectory
    {file : Option FileHead}
    (counted :
      CountedUpTo frames ending receiver.stats.packs
        (behindFile receiver.input file))
    (root : Location) (relative : String) :
    CountsPacks input ending frames
      (receiver.createSafeDirectory root relative file) := by
  rw [DirectoryReceiver.createSafeDirectory]
  split
  · exact countsPacks_fail _
  · exact countsPacks_enter counted _ _ _

theorem countsPacks_beginFile
    {head : FileHead}
    (counted :
      CountedUpTo frames ending receiver.stats.packs
        (behindFile receiver.input (some head)))
    (root : Location) :
    CountsPacks input ending frames (receiver.beginFile root head) := by
  rw [DirectoryReceiver.beginFile]
  split
  · exact countsPacks_fail _
  · split
    · exact countsPacks_enter counted _ _ _
    · exact countsPacks_createSafeDirectory counted _ _

/-- The bytes of a well-formed file frame behind its head. -/
theorem drop_body
    {relative : String} {content : List UInt8} {flag : UInt8}
    {digest : List UInt8}
    (wellFormed :
      (DirectoryFrame.file relative content flag digest).WellFormed)
    (rest : List UInt8) :
    behindFile (content ++ digest ++ rest)
        (some ⟨relative, content.length, flag⟩) = rest := by
  obtain ⟨-, -, isDigest⟩ := wellFormed
  have isLength :
      (content ++ digest).length =
        content.length +
          FileHead.digestLength ⟨relative, content.length, flag⟩ := by
    rw [List.length_append, isDigest, FileHead.digestLength]
    split
    · rfl
    · rw [length_sha256]
  rw [behindFile, ← isLength, List.drop_left]

/-- The next frame is read. -/
theorem countsPacks_readFrame
    (wellFormed : ∀ frame ∈ frames, frame.WellFormed)
    (ends :
      ∀ head rest, readFrameHead ending = .ok (head, rest) →
        ∃ files directories bytes, head = .finish files directories bytes)
    {root : Location} (isPhase : receiver.phase = .framing root)
    (counted :
      CountedUpTo frames ending receiver.stats.packs receiver.input) :
    CountsPacks input ending frames (receiver.readFrame root) := by
  obtain ⟨before, after, isFrames, isPacks, isInput⟩ := counted
  rw [DirectoryReceiver.readFrame, isInput]
  cases after with
  | nil =>
      rw [encodeFrames, List.flatMap_nil, List.nil_append]
      cases headRead : readFrameHead ending with
      | error reason => exact countsPacks_fail _
      | ok result =>
          obtain ⟨head, rest⟩ := result
          obtain ⟨files, directories, bytes, rfl⟩ :=
            ends head rest headRead
          dsimp only
          split
          · exact countsPacks_fail _
          · rw [isFrames, List.append_nil]
            exact isPacks
  | cons frame later =>
      have isWellFormed : frame.WellFormed := by
        apply wellFormed
        rw [isFrames]
        simp
      have headRead :=
        readFrameHead_encode isWellFormed (encodeFrames later ++ ending)
      have advanced {packs : Nat}
          (isNext :
            packs =
              (before ++ [frame]).countP DirectoryFrame.isPackStart %
                2 ^ 64) :
          CountedUpTo frames ending packs
            (encodeFrames later ++ ending) := by
        refine ⟨before ++ [frame], later, ?_, isNext, rfl⟩
        rw [isFrames, List.append_assoc, List.singleton_append]
      rw [List.countP_append, List.countP_singleton] at advanced
      rw [encodeFrames, List.flatMap_cons, List.append_assoc]
      rw [← encodeFrames, headRead]
      cases frame with
      | directory relative =>
          exact
            countsPacks_createSafeDirectory (advanced isPacks) root
              relative
      | packStart pack =>
          refine countsPacks_framing isPhase (advanced ?_)
          change (receiver.stats.packs + 1) % 2 ^ 64 = _
          rw [isPacks, Nat.mod_add_mod]
          rfl
      | packEnd =>
          exact countsPacks_framing isPhase (advanced isPacks)
      | file relative content flag digest =>
          apply countsPacks_beginFile
          dsimp only [DirectoryFrame.body]
          rw [drop_body isWellFormed]
          exact advanced isPacks

theorem countsPacks_makeDirectory
    {file : Option FileHead}
    (counted :
      CountedUpTo frames ending receiver.stats.packs
        (behindFile receiver.input file))
    (root current : Location) (name : String) (rest : List String) :
    CountsPacks input ending frames
      (receiver.makeDirectory root current name rest file) := by
  rw [DirectoryReceiver.makeDirectory]
  split
  · exact countsPacks_fail _
  · exact countsPacks_fail _
  · exact countsPacks_enter counted _ _ _
  · split
    · exact countsPacks_fail _
    · refine countsPacks_enter ?_ _ _ _
      exact counted
  · exact countsPacks_fail _

theorem countsPacks_createStaging
    {head : FileHead}
    (counted :
      CountedUpTo frames ending receiver.stats.packs
        (behindFile receiver.input (some head)))
    (root parent : Location) (lookupFails createFails : Bool) :
    CountsPacks input ending frames
      (receiver.createStaging root parent head lookupFails
        createFails) := by
  rw [DirectoryReceiver.createStaging.eq_def]
  split
  · exact countsPacks_fail _
  · split
    · exact countsPacks_fail _
    · split
      · exact countsPacks_fail _
      · exact counted

/-- A chunk is taken off the front of the content. -/
theorem countsPacks_copyChunk
    {root staging opened : Location} {head : FileHead}
    {copied : List UInt8} (unfinished : copied.length < head.size)
    (counted :
      CountedUpTo frames ending receiver.stats.packs
        (receiver.input.drop
          (head.size - copied.length + head.digestLength)))
    (limit : Nat) (written : Option Nat) :
    CountsPacks input ending frames
      (receiver.copyChunk root head staging opened copied limit
        written) := by
  rw [DirectoryReceiver.copyChunk.eq_def]
  dsimp only
  split
  · exact countsPacks_fail _
  · split
    · exact countsPacks_fail _
    · generalize isChunk :
        receiver.input.take
            (max 1
              (min limit (min (head.size - copied.length) fileChunkSize))) =
          chunk
      have short : chunk.length ≤ head.size - copied.length := by
        rw [← isChunk, List.length_take]
        omega
      change
        CountedUpTo frames ending receiver.stats.packs
          ((receiver.input.drop chunk.length).drop
            (head.size - (copied ++ chunk).length + head.digestLength))
      rw [List.drop_drop, List.length_append]
      have sameEnd :
          chunk.length +
              (head.size - (copied.length + chunk.length) +
                head.digestLength) =
            head.size - copied.length + head.digestLength := by
        omega
      rw [sameEnd]
      exact counted

/-- The digest is behind the content. -/
theorem countsPacks_finishContent
    {root staging : Location} {head : FileHead} {copied : List UInt8}
    (counted :
      CountedUpTo frames ending receiver.stats.packs
        (receiver.input.drop head.digestLength))
    (flushFails removeFails : Bool) :
    CountsPacks input ending frames
      (receiver.finishContent root head staging copied flushFails
        removeFails) := by
  rw [FileHead.digestLength] at counted
  rw [DirectoryReceiver.finishContent]
  split
  · exact countsPacks_fail _
  · split
    · rename_i noDigest
      rw [if_pos noDigest, List.drop_zero] at counted
      exact counted
    · rename_i withDigest
      rw [if_neg withDigest] at counted
      rw [readExact]
      split
      · exact countsPacks_fail _
      · rename_i digestRead
        split at digestRead
        · cases digestRead
          split
          · exact counted
          · exact countsPacks_fail _
        · cases digestRead

theorem countsPacks_step
    {base : Location} {label : DirectoryReceiveLabel}
    (wellFormed : ∀ frame ∈ frames, frame.WellFormed)
    (starts :
      ∀ rootName rest, readStart input = .ok (rootName, rest) →
        rest = encodeFrames frames ++ ending)
    (ends :
      ∀ head rest, readFrameHead ending = .ok (head, rest) →
        ∃ files directories bytes, head = .finish files directories bytes)
    (holds : CountsPacks input ending frames receiver)
    (stepped : directoryReceiveStep base receiver label = some next) :
    CountsPacks input ending frames next := by
  rw [directoryReceiveStep.eq_def] at stepped
  split at stepped
  · rename_i isPhase
    cases stepped
    rw [CountsPacks, isPhase] at holds
    obtain ⟨isInput, noPacks⟩ := holds
    rw [DirectoryReceiver.openStream, isInput]
    split
    · exact countsPacks_fail _
    · rename_i startRead
      split
      · exact countsPacks_fail _
      · exact ⟨starts _ _ startRead, noPacks⟩
  · rename_i isPhase
    cases stepped
    rw [CountsPacks, isPhase] at holds
    obtain ⟨isInput, noPacks⟩ := holds
    rw [DirectoryReceiver.createRoot]
    split
    · exact countsPacks_fail _
    · rw [DirectoryReceiver.inspectRoot.eq_def]
      split
      · exact ⟨[], frames, rfl, noPacks, isInput⟩
      · exact countsPacks_fail _
      · exact countsPacks_fail _
  · rename_i isPhase
    cases stepped
    rw [CountsPacks, isPhase] at holds
    exact countsPacks_readFrame wellFormed ends isPhase holds
  · rename_i file _ isPhase
    rw [CountsPacks, isPhase] at holds
    split at stepped
    · cases stepped
      exact countsPacks_fail _
    · cases stepped
      refine countsPacks_makeDirectory ?_ _ _ _ _
      cases file <;> exact holds
  · rename_i isPhase
    cases stepped
    rw [CountsPacks, isPhase] at holds
    exact countsPacks_createStaging holds _ _ _ _
  · rename_i isPhase
    rw [CountsPacks, isPhase] at holds
    split at stepped
    · rename_i unfinished
      cases stepped
      exact countsPacks_copyChunk unfinished holds _ _
    · cases stepped
  · rename_i isPhase
    rw [CountsPacks, isPhase] at holds
    split at stepped
    · cases stepped
    · rename_i finished
      cases stepped
      dsimp only [behindFrame] at holds
      rw [Nat.sub_eq_zero_of_le (Nat.not_lt.mp finished),
        Nat.zero_add] at holds
      exact countsPacks_finishContent holds _ _
  · rename_i isPhase
    cases stepped
    rw [CountsPacks, isPhase] at holds
    rw [DirectoryReceiver.renameStaging.eq_def]
    split
    · exact holds
    · exact countsPacks_fail _
  · split at stepped
    · cases stepped
      exact countsPacks_fail _
    · cases stepped
  · cases stepped

end Counting

/-- What is read of the totals is their frame. -/
theorem readFrameHead_totals
    {stats : DirectoryTransferStats} {head : FrameHead}
    {rest : List UInt8}
    (reads : readFrameHead (encodeEnd stats) = .ok (head, rest)) :
    ∃ files directories bytes, head = .finish files directories bytes := by
  rw [encodeEnd, readFrameHead] at reads
  rw [if_neg (by decide), if_neg (by decide), if_neg (by decide),
    if_neg (by decide), if_pos rfl] at reads
  obtain ⟨files, _, reads⟩ := bind_eq_ok reads
  obtain ⟨directories, _, reads⟩ := bind_eq_ok reads
  obtain ⟨bytes, _, reads⟩ := bind_eq_ok reads
  cases reads
  exact ⟨_, _, _, rfl⟩

/-- A receiver that takes the whole stream of a sender counts its packs. -/
theorem received_packs
    {profile : StorageProfile} {sender : DirectorySender}
    (holds : SendsPacks profile sender) (sent : sender.phase = .done)
    {base : Location} {tree : FileTree}
    {labels : List DirectoryReceiveLabel} {receiver : DirectoryReceiver}
    (run :
      Run (directoryReceiveStep base) anyStep (.start tree sender.written)
        labels receiver)
    (finished : receiver.phase = .done) :
    receiver.stats.packs =
      sender.frames.countP DirectoryFrame.isPackStart % 2 ^ 64 := by
  rw [SendsPacks, sent] at holds
  obtain ⟨-, ⟨wire, accepted, isWritten⟩, wellFormed⟩ := holds
  have starts :
      ∀ rootName rest, readStart sender.written = .ok (rootName, rest) →
        rest = encodeFrames sender.frames ++ encodeEnd sender.stats := by
    intro rootName rest startRead
    have pathRead :=
      readPath_encodePath accepted
        (encodeFrames sender.frames ++ encodeEnd sender.stats)
    rw [isWritten] at startRead
    change readStart (frameStart :: (encodePath wire ++ _)) = _
      at startRead
    simp only [readStart, if_true, pathRead, bind, Except.bind]
      at startRead
    split at startRead
    · cases startRead
    · cases startRead
      rfl
  have counts :
      CountsPacks sender.written (encodeEnd sender.stats) sender.frames
        receiver :=
    run.preserves _
      (fun _ _ _ holds _ stepped =>
        countsPacks_step wellFormed starts
          (fun _ _ reads => readFrameHead_totals reads) holds stepped)
      ⟨rfl, rfl⟩
  rw [CountsPacks, finished] at counts
  exact counts

/-! ## The accounts -/

/-- In every state of a send the pack frames alternate and are numbered from 0,
as 64-bit numbers; their count is the one that both sides report; a pack is
within the target or has a single file that is not empty; a pack is opened for
the first file only that does not fit; and the bytes of a pack fit into 64
bits. -/
theorem packs_accounted
    (rootName : EntryName) (entries : SourceEntries)
    (sizes : entries.SizesFit) (profile : StorageProfile)
    (checksum : Bool) (labels : List DirectorySendLabel)
    (sender : DirectorySender)
    (run :
      Run (directorySendStep rootName) anyStep
        (.start entries profile checksum) labels sender) :
    RecordsPacks profile.packTargetBytes sender ∧
      (∀ label next,
        directorySendStep rootName sender label = some next →
          sender.phase = .opening ∨
            next.frames.countP DirectoryFrame.isPackStart ≤
                sender.frames.countP DirectoryFrame.isPackStart ∨
              sender.NextOverfills profile.packTargetBytes) ∧
        (∀ parents name size content rest below,
          sender.phase = .walking →
            sender.stack =
                (parents, .file name size content rest) :: below →
              (sender.rollPack size).packBytes + size < 2 ^ 64) ∧
          ∀ base tree receiveLabels receiver,
            sender.phase = .done →
              Run (directoryReceiveStep base) anyStep
                  (.start tree sender.written) receiveLabels receiver →
                receiver.phase = .done →
                  receiver.stats.packs = sender.stats.packs := by
  have holds := sendsPacks_run sizes run
  refine ⟨holds.records, ?_, ?_, ?_⟩
  · intro label next stepped
    exact opens_step holds stepped
  · intro parents name size content rest below isWalking isStack
    rw [SendsPacks, isWalking] at holds
    obtain ⟨packing, writes⟩ := holds
    exact packBytes_fits writes isStack
  · intro base tree receiveLabels receiver sent received finished
    rw [received_packs holds sent received finished,
      holds.records.counted (Or.inl sent)]

/-- A turn at a file that did not change sends all of it. -/
theorem directorySendStep_file
    (rootName : EntryName) (sender : DirectorySender) {parents : List String}
    {name : EntryName} {text wire : String} {content : List UInt8}
    {size : Nat} {rest : SourceEntries}
    {below : List (List String × SourceEntries)}
    (walks : sender.phase = .walking)
    (isStack :
      sender.stack = (parents, .file name size content rest) :: below)
    (isWire : entryToWire parents name = .ok (text, wire))
    (isLength : content.length = size) (source : String)
    (sizes : Nat → Nat) :
    directorySendStep rootName sender (.turn source sizes) =
      some
        (DirectorySender.sentFile
          { sender.rollPack size with stack := (parents, rest) :: below }
          wire size content) := by
  simp only [directorySendStep, walks, if_true, DirectorySender.turn, isStack,
    isWire, copyContent_of_length sizes isLength (Nat.le_refl size)]

/-- A file of one byte, and one that fills a pack on its own. -/
def twoPacks (content : List UInt8) : SourceEntries :=
  .file (.ofText "first" (by decide +kernel)) 1 [7]
    (.file (.ofText "second" (by decide +kernel)) (16 * 1024 * 1024) content
      .done)

theorem packs_accounted_two_packs :
    ∃ labels sender,
      Run (directorySendStep nestedTree.name) anyStep
          (.start (twoPacks (List.replicate (16 * 1024 * 1024) 0)) .hdd false)
          labels sender ∧
        sender.phase = .done ∧ sender.stats.packs = 2 ∧
          RecordsPacks (StorageProfile.packTargetBytes .hdd) sender := by
  have isLength :
      (List.replicate (16 * 1024 * 1024) (0 : UInt8)).length =
        16 * 1024 * 1024 :=
    List.length_replicate
  generalize List.replicate (16 * 1024 * 1024) (0 : UInt8) = content
    at isLength ⊢
  let step := directorySendStep nestedTree.name
  let turn : DirectorySendLabel := .turn "/source" fun _ => 0
  let opened : DirectorySender :=
    DirectorySender.write
      { DirectorySender.start (twoPacks content) .hdd false with
        written := encodeStart "source"
        phase := .walking }
      (.packStart 0)
  let first : DirectorySender :=
    DirectorySender.sentFile
      { opened.rollPack 1 with
        stack :=
          [([],
            .file (.ofText "second" (by decide +kernel)) (16 * 1024 * 1024)
              content .done)] }
      "first" 1 [7]
  let rolled : DirectorySender :=
    DirectorySender.write
      { first.write .packEnd with
        packNumber := 1
        stats := ⟨1, 1, 1, 2⟩
        packBytes := 0 }
      (.packStart 1)
  have held : first.packBytes = 1 := rfl
  have target : first.target = 16 * 1024 * 1024 := rfl
  have rolls : first.rollPack (16 * 1024 * 1024) = rolled := by
    rw [DirectorySender.rollPack, held, target,
      if_pos ⟨by decide, by decide⟩]
    rfl
  let second : DirectorySender :=
    DirectorySender.sentFile
      { rolled with stack := [([], .done)] } "second" (16 * 1024 * 1024)
      content
  have wires :
      pathToWire "source" = .ok "source" ∧
        entryToWire [] (.ofText "first" (by decide +kernel)) =
            .ok ("first", "first") ∧
          entryToWire [] (.ofText "second" (by decide +kernel)) =
            .ok ("second", "second") := by
    decide +kernel
  have opens :
      step (.start (twoPacks content) .hdd false) .openStream =
        some opened := by
    simp only [step, directorySendStep, DirectorySender.openStream,
      nestedTree, EntryName.ofText, wires.1]
    rfl
  have turnsFirst : step opened turn = some first :=
    directorySendStep_file _ opened rfl rfl wires.2.1 rfl _ _
  have turnsSecond : step first turn = some second := by
    have turned :=
      directorySendStep_file nestedTree.name first rfl rfl wires.2.2 isLength
        "/source" fun _ => 0
    rwa [rolls] at turned
  have closed :
      ∃ sender, Run step anyStep second [turn, turn] sender ∧
        sender.phase = .done ∧ sender.stats.packs = 2 :=
    ⟨_, Run.cons trivial rfl (Run.cons trivial rfl (Run.refl _)), rfl, rfl⟩
  obtain ⟨sender, closes, finished, packs⟩ := closed
  have run :
      Run step anyStep (.start (twoPacks content) .hdd false)
        [.openStream, turn, turn, turn, turn] sender :=
    Run.cons trivial opens
      (Run.cons trivial turnsFirst (Run.cons trivial turnsSecond closes))
  have sizes : (twoPacks content).SizesFit := by
    simp [twoPacks, SourceEntries.SizesFit]
  exact
    ⟨_, sender, run, finished, packs,
      (packs_accounted _ _ sizes .hdd false _ sender run).1⟩

end Quiczilla
