import Quiczilla.DirectoryApply

/-!
# A directory stream that arrives in parts

What the receiver has done with the bytes that were there it would have done
with more of them, too, unless it failed.  So a reception that takes its stream
in parts is one of the whole stream.
-/

namespace Quiczilla

open Foundation

/-! ## Reading -/

section Reading

variable {input rest : List UInt8} (later : List UInt8)

theorem readExact_later
    {count : Nat} {bytes : List UInt8}
    (read : readExact count input = .ok (bytes, rest)) :
    readExact count (input ++ later) = .ok (bytes, rest ++ later) := by
  obtain ⟨split, exact⟩ := readExact_split read
  rw [split, List.append_assoc]
  exact readExact_append exact (rest ++ later)

theorem readU8_later
    {byte : UInt8} (read : readU8 input = .ok (byte, rest)) :
    readU8 (input ++ later) = .ok (byte, rest ++ later) := by
  cases input with
  | nil => cases read
  | cons first behind =>
      cases read
      rfl

theorem readPath_later
    {value : String} (read : readPath input = .ok (value, rest)) :
    readPath (input ++ later) = .ok (value, rest ++ later) := by
  obtain ⟨⟨lengthBytes, behind⟩, readLength, read⟩ := bind_eq_ok read
  dsimp only at read
  split at read
  · cases read
  · rename_i inRange
    obtain ⟨⟨bytes, others⟩, readBytes, read⟩ := bind_eq_ok read
    obtain ⟨text, isText, read⟩ := bind_eq_ok read
    obtain ⟨_, accepted, read⟩ := bind_eq_ok read
    cases read
    simp only [readPath, readExact_later later readLength, bind,
      Except.bind, if_neg inRange, readExact_later later readBytes, isText,
      accepted]

theorem readFrameHead_later
    {head : FrameHead} (read : readFrameHead input = .ok (head, rest)) :
    readFrameHead (input ++ later) = .ok (head, rest ++ later) := by
  cases input with
  | nil => cases read
  | cons tag behind =>
      rw [List.cons_append]
      rw [readFrameHead] at read ⊢
      by_cases isDirectory : tag = frameDirectory
      · rw [if_pos isDirectory] at read ⊢
        obtain ⟨⟨relative, others⟩, readName, read⟩ := bind_eq_ok read
        cases read
        simp only [readPath_later later readName, bind, Except.bind]
      rw [if_neg isDirectory] at read ⊢
      by_cases isPackStart : tag = framePackStart
      · rw [if_pos isPackStart] at read ⊢
        obtain ⟨⟨ignored, others⟩, readPack, read⟩ := bind_eq_ok read
        cases read
        simp only [readExact_later later readPack, bind, Except.bind]
      rw [if_neg isPackStart] at read ⊢
      by_cases isPackEnd : tag = framePackEnd
      · rw [if_pos isPackEnd] at read ⊢
        cases read
        rfl
      rw [if_neg isPackEnd] at read ⊢
      by_cases isFile : tag = frameFile
      · rw [if_pos isFile] at read ⊢
        obtain ⟨⟨relative, first⟩, readName, read⟩ := bind_eq_ok read
        obtain ⟨⟨sizeBytes, second⟩, readSize, read⟩ := bind_eq_ok read
        obtain ⟨⟨flag, third⟩, readFlag, read⟩ := bind_eq_ok read
        cases read
        simp only [readPath_later later readName,
          readExact_later later readSize, readU8_later later readFlag,
          bind, Except.bind]
      rw [if_neg isFile] at read ⊢
      by_cases isEnd : tag = frameEnd
      · rw [if_pos isEnd] at read ⊢
        obtain ⟨⟨files, first⟩, readFiles, read⟩ := bind_eq_ok read
        obtain ⟨⟨directories, second⟩, readDirectories, read⟩ :=
          bind_eq_ok read
        obtain ⟨⟨bytes, third⟩, readBytes, read⟩ := bind_eq_ok read
        cases read
        simp only [readExact_later later readFiles,
          readExact_later later readDirectories,
          readExact_later later readBytes, bind, Except.bind]
      · rw [if_neg isEnd] at read
        cases read

theorem readStart_later
    {rootName : String} (read : readStart input = .ok (rootName, rest)) :
    readStart (input ++ later) = .ok (rootName, rest ++ later) := by
  cases input with
  | nil => cases read
  | cons tag behind =>
      rw [List.cons_append]
      rw [readStart] at read ⊢
      by_cases isStart : tag = frameStart
      · rw [if_pos isStart] at read ⊢
        obtain ⟨⟨value, others⟩, readName, read⟩ := bind_eq_ok read
        dsimp only at read
        split at read
        · cases read
        · rename_i single
          cases read
          simp only [readPath_later later readName, bind, Except.bind,
            if_neg single]
      · rw [if_neg isStart] at read
        cases read

end Reading

/-! ## Steps -/

/-- The receiver when more bytes have arrived. -/
def DirectoryReceiver.feed
    (receiver : DirectoryReceiver) (bytes : List UInt8) :
    DirectoryReceiver :=
  { receiver with input := receiver.input ++ bytes }

def DirectoryReceivePhase.isFailed : DirectoryReceivePhase → Bool
  | .failed _ => true
  | _ => false

namespace DirectoryReceiver

variable (receiver : DirectoryReceiver) (bytes : List UInt8)

theorem feed_enter
    (root current : Location) (names : List String)
    (file : Option FileHead) :
    (receiver.feed bytes).enter root current names file =
      (receiver.enter root current names file).feed bytes := by
  cases names with
  | cons name rest => rfl
  | nil => cases file <;> rfl

theorem feed_createSafeDirectory
    (root : Location) (relative : String) (file : Option FileHead) :
    (receiver.feed bytes).createSafeDirectory root relative file =
      (receiver.createSafeDirectory root relative file).feed bytes := by
  rw [createSafeDirectory, createSafeDirectory]
  cases validateRelativePath .unix relative with
  | error reason => rfl
  | ok accepted => exact feed_enter receiver bytes root root _ file

theorem feed_beginFile (root : Location) (head : FileHead) :
    (receiver.feed bytes).beginFile root head =
      (receiver.beginFile root head).feed bytes := by
  rw [beginFile, beginFile]
  cases validateRelativePath .unix head.relative with
  | error reason => rfl
  | ok accepted =>
      by_cases atRoot : parentText head.relative = ""
      · simp only [if_pos atRoot]
        exact feed_enter receiver bytes root root [] (some head)
      · simp only [if_neg atRoot]
        exact feed_createSafeDirectory receiver bytes root _ (some head)

theorem feed_createRoot
    (root : Location) (fails : Location → Bool) (lookupFails : Bool) :
    (receiver.feed bytes).createRoot root fails lookupFails =
      (receiver.createRoot root fails lookupFails).feed bytes := by
  have isTree : (receiver.feed bytes).tree = receiver.tree := rfl
  rw [createRoot, createRoot, isTree]
  cases receiver.tree.createDirAll fails root with
  | mk tree created outcome =>
      cases outcome with
      | error reason => rfl
      | ok done =>
          have acted :
              (receiver.feed bytes).act tree created =
                (receiver.act tree created).feed bytes :=
            rfl
          simp only [acted]
          generalize receiver.act tree created = acting
          have isTree : (acting.feed bytes).tree = acting.tree := rfl
          rw [inspectRoot.eq_def, inspectRoot.eq_def, isTree]
          split <;> rfl

theorem feed_makeDirectory
    (root current : Location) (name : String) (rest : List String)
    (file : Option FileHead) :
    (receiver.feed bytes).makeDirectory root current name rest file =
      (receiver.makeDirectory root current name rest file).feed bytes := by
  have isTree : (receiver.feed bytes).tree = receiver.tree := rfl
  rw [makeDirectory, makeDirectory, isTree]
  split
  · rfl
  · rfl
  · exact feed_enter receiver bytes root _ rest file
  · split
    · rfl
    · exact feed_enter (receiver.act _ _) bytes root _ rest file
  · rfl

theorem feed_createStaging
    (root parent : Location) (head : FileHead)
    (lookupFails createFails : Bool) :
    (receiver.feed bytes).createStaging root parent head lookupFails
        createFails =
      (receiver.createStaging root parent head lookupFails
        createFails).feed bytes := by
  have isTree : (receiver.feed bytes).tree = receiver.tree := rfl
  rw [createStaging.eq_def, createStaging.eq_def, isTree]
  split
  · rfl
  · split
    · rfl
    · split <;> rfl

theorem feed_renameStaging
    (root : Location) (head : FileHead) (staging : Location)
    (fails : Bool) :
    (receiver.feed bytes).renameStaging root head staging fails =
      (receiver.renameStaging root head staging fails).feed bytes := by
  have isTree : (receiver.feed bytes).tree = receiver.tree := rfl
  rw [renameStaging.eq_def, renameStaging.eq_def, isTree]
  split <;> rfl

variable {receiver bytes}

theorem feed_openStream
    {base : Location}
    (works : (receiver.openStream base).phase.isFailed = false) :
    (receiver.feed bytes).openStream base =
      (receiver.openStream base).feed bytes := by
  rw [openStream] at works ⊢
  cases read : readStart receiver.input with
  | error reason =>
      rw [read] at works
      cases works
  | ok result =>
      obtain ⟨rootName, rest⟩ := result
      have isRead : readStart (receiver.feed bytes).input = _ :=
        readStart_later bytes read
      rw [openStream, read, isRead]
      cases accepted : validateRelativePath .unix rootName with
      | error reason =>
          rw [read] at works
          simp only [accepted] at works
          cases works
      | ok valid =>
          simp only [accepted]
          rfl

theorem feed_readFrame
    {root : Location}
    (works : (receiver.readFrame root).phase.isFailed = false) :
    (receiver.feed bytes).readFrame root =
      (receiver.readFrame root).feed bytes := by
  rw [readFrame] at works ⊢
  cases read : readFrameHead receiver.input with
  | error reason =>
      rw [read] at works
      cases works
  | ok result =>
      obtain ⟨head, rest⟩ := result
      have isRead : readFrameHead (receiver.feed bytes).input = _ :=
        readFrameHead_later bytes read
      rw [readFrame, read, isRead]
      cases head with
      | directory relative =>
          exact
            feed_createSafeDirectory { receiver with input := rest } bytes
              root relative none
      | packStart pack => rfl
      | packEnd => rfl
      | file relative size flag =>
          exact
            feed_beginFile
              { receiver with
                input := rest
                named := receiver.named ++ [childLocation root relative] }
              bytes root ⟨relative, size, flag⟩
      | finish files directories total =>
          have isStats : (receiver.feed bytes).stats = receiver.stats := rfl
          simp only [isStats]
          split <;> rfl

theorem feed_finishContent
    {root : Location} {head : FileHead} {staging : Location}
    {copied : List UInt8} {flushFails removeFails : Bool}
    (works :
      (receiver.finishContent root head staging copied flushFails
          removeFails).phase.isFailed =
        false) :
    (receiver.feed bytes).finishContent root head staging copied flushFails
        removeFails =
      (receiver.finishContent root head staging copied flushFails
        removeFails).feed bytes := by
  rw [finishContent] at works ⊢
  by_cases flush : flushFails = true
  · rw [if_pos flush] at works
    cases works
  · rw [if_neg flush] at works
    rw [finishContent, if_neg flush, if_neg flush]
    by_cases noDigest : head.flag = 0
    · rw [if_pos noDigest, if_pos noDigest]
      rfl
    · rw [if_neg noDigest] at works
      rw [if_neg noDigest, if_neg noDigest]
      cases read : readExact 32 receiver.input with
      | error reason =>
          rw [read] at works
          cases works
      | ok result =>
          obtain ⟨expected, rest⟩ := result
          have isRead : readExact 32 (receiver.feed bytes).input = _ :=
            readExact_later bytes read
          rw [isRead]
          rw [read] at works
          by_cases same : sha256 copied = expected
          · simp only [if_pos same]
            rfl
          · simp only [if_neg same] at works
            cases works

/-- With more bytes a read could deliver more of them, but it can deliver just
as many. -/
theorem feed_copyChunk
    {root : Location} {head : FileHead} {staging opened : Location}
    {copied : List UInt8} {limit : Nat} {written : Option Nat}
    (works :
      (receiver.copyChunk root head staging opened copied limit
          written).phase.isFailed =
        false) :
    ∃ other,
      (receiver.feed bytes).copyChunk root head staging opened copied other
          written =
        (receiver.copyChunk root head staging opened copied limit
          written).feed bytes := by
  generalize isChunk :
    receiver.input.take
        (max 1
          (min limit (min (head.size - copied.length) fileChunkSize))) =
      chunk
  have isPrefix : chunk <+: receiver.input := by
    rw [← isChunk]
    exact List.take_prefix _ _
  have bounded :
      chunk.length ≤
        max 1
          (min limit (min (head.size - copied.length) fileChunkSize)) := by
    rw [← isChunk]
    exact List.length_take_le _ _
  refine ⟨chunk.length, ?_⟩
  by_cases isEmpty : chunk = []
  · simp only [copyChunk, isChunk, if_pos isEmpty] at works
    cases works
  have notEmpty : 0 < chunk.length := List.length_pos_of_ne_nil isEmpty
  have same :
      max 1
          (min chunk.length
            (min (head.size - copied.length) fileChunkSize)) =
        chunk.length := by
    omega
  obtain ⟨rest, isRest⟩ := isPrefix
  have again :
      (receiver.feed bytes).input.take
          (max 1
            (min chunk.length
              (min (head.size - copied.length) fileChunkSize))) =
        chunk := by
    rw [same]
    change (receiver.input ++ bytes).take chunk.length = chunk
    rw [← isRest, List.append_assoc, List.take_left]
  have dropped :
      (receiver.feed bytes).input.drop chunk.length =
        receiver.input.drop chunk.length ++ bytes := by
    change (receiver.input ++ bytes).drop chunk.length = _
    rw [← isRest, List.append_assoc, List.drop_left, List.drop_left]
  simp only [copyChunk, again, isChunk, if_neg isEmpty]
  cases written with
  | some count => rfl
  | none =>
      simp only [dropped]
      rfl

end DirectoryReceiver

section Feeding

variable {base : Location} {receiver next : DirectoryReceiver}
  {label : DirectoryReceiveLabel} (bytes : List UInt8)

/-- A step that does not fail is possible with more bytes, too. -/
theorem feed_step
    (stepped : directoryReceiveStep base receiver label = some next)
    (works : next.phase.isFailed = false) :
    ∃ other,
      directoryReceiveStep base (receiver.feed bytes) other =
        some (next.feed bytes) := by
  have isPhase : (receiver.feed bytes).phase = receiver.phase := rfl
  rw [directoryReceiveStep.eq_def] at stepped
  split at stepped
  · rename_i opening
    cases stepped
    refine ⟨.openStream, ?_⟩
    simp only [directoryReceiveStep, isPhase, opening]
    exact congrArg some (DirectoryReceiver.feed_openStream works)
  · rename_i root fails lookupFails creating
    cases stepped
    refine ⟨.createRoot fails lookupFails, ?_⟩
    simp only [directoryReceiveStep, isPhase, creating]
    exact
      congrArg some
        (receiver.feed_createRoot bytes root fails lookupFails)
  · rename_i root framing
    cases stepped
    refine ⟨.readFrame, ?_⟩
    simp only [directoryReceiveStep, isPhase, framing]
    exact congrArg some (DirectoryReceiver.feed_readFrame works)
  · rename_i root current name rest file fails making
    split at stepped
    · cases stepped
      cases works
    · rename_i succeeds
      cases stepped
      refine ⟨.makeDirectory fails, ?_⟩
      simp only [directoryReceiveStep, isPhase, making, if_neg succeeds]
      exact
        congrArg some
          (receiver.feed_makeDirectory bytes root current name rest file)
  · rename_i root parent head lookupFails createFails placing
    cases stepped
    refine ⟨.createStaging lookupFails createFails, ?_⟩
    simp only [directoryReceiveStep, isPhase, placing]
    exact
      congrArg some
        (receiver.feed_createStaging bytes root parent head lookupFails
          createFails)
  · rename_i root head staging opened copied limit written copying
    split at stepped
    · rename_i unfinished
      cases stepped
      obtain ⟨other, same⟩ :=
        @DirectoryReceiver.feed_copyChunk receiver bytes root head staging
          opened copied limit written works
      refine ⟨.copyChunk other written, ?_⟩
      simp only [directoryReceiveStep, isPhase, copying, if_pos unfinished]
      exact congrArg some same
    · cases stepped
  · rename_i root head staging opened copied flushFails removeFails copying
    split at stepped
    · cases stepped
    · rename_i finished
      cases stepped
      refine ⟨.finishContent flushFails removeFails, ?_⟩
      simp only [directoryReceiveStep, isPhase, copying, if_neg finished]
      exact congrArg some (DirectoryReceiver.feed_finishContent works)
  · rename_i root head staging fails isRenaming
    cases stepped
    refine ⟨.renameStaging fails, ?_⟩
    simp only [directoryReceiveStep, isPhase, isRenaming]
    exact
      congrArg some
        (receiver.feed_renameStaging bytes root head staging fails)
  · split at stepped
    · cases stepped
      cases works
    · cases stepped
  · cases stepped

theorem not_step_of_failed
    (failed : receiver.phase.isFailed = true) :
    directoryReceiveStep base receiver label = none := by
  cases isPhase : receiver.phase with
  | failed reason =>
      cases label <;>
        simp [directoryReceiveStep, DirectoryReceiver.reads, isPhase]
  | _ =>
      rw [isPhase] at failed
      cases failed

/-- A reception that has not failed is one of a longer stream. -/
theorem feed_run
    {labels : List DirectoryReceiveLabel}
    (run : Run (directoryReceiveStep base) anyStep receiver labels next)
    (works : next.phase.isFailed = false) :
    ∃ others,
      Run (directoryReceiveStep base) anyStep (receiver.feed bytes) others
        (next.feed bytes) := by
  induction run with
  | refl receiver => exact ⟨[], Run.refl _⟩
  | @cons first middle last label rest admitted stepped later
      inductionHypothesis =>
      have continues : middle.phase.isFailed = false := by
        cases later with
        | refl => exact works
        | cons admitted again _ =>
            by_cases failed : middle.phase.isFailed = true
            · rw [not_step_of_failed failed] at again
              cases again
            · simpa using failed
      obtain ⟨others, followed⟩ := inductionHypothesis works
      obtain ⟨other, again⟩ := feed_step bytes stepped continues
      exact ⟨other :: others, Run.cons trivial again followed⟩

end Feeding

/-! ## The end of the stream -/

section Receiving

variable {base : Location} {tree : FileTree} {stream : DirectoryStream}
  {receiver next : DirectoryReceiver}

theorem enter_ne_done
    (receiver : DirectoryReceiver) (root current : Location)
    (names : List String) (file : Option FileHead) :
    (receiver.enter root current names file).phase ≠ .done := by
  cases names with
  | cons name rest =>
      intro same
      cases same
  | nil =>
      cases file <;>
        · intro same
          cases same

theorem createSafeDirectory_ne_done
    (receiver : DirectoryReceiver) (root : Location) (relative : String)
    (file : Option FileHead) :
    (receiver.createSafeDirectory root relative file).phase ≠ .done := by
  rw [DirectoryReceiver.createSafeDirectory]
  split
  · intro same
    cases same
  · exact enter_ne_done receiver root root _ file

/-- Only the END frame completes a reception. -/
theorem finish_of_readFrame
    {root : Location} (isFraming : receiver.phase = .framing root)
    (isDone : (receiver.readFrame root).phase = .done) :
    ∃ files directories bytes,
      readFrameHead receiver.input =
        .ok (.finish files directories bytes,
          (receiver.readFrame root).input) := by
  rw [DirectoryReceiver.readFrame] at isDone ⊢
  split at isDone
  · cases isDone
  · exact absurd isDone (createSafeDirectory_ne_done _ root _ none)
  · have isPhase := isFraming.symm.trans isDone
    cases isPhase
  · have isPhase := isFraming.symm.trans isDone
    cases isPhase
  · exfalso
    rw [DirectoryReceiver.beginFile] at isDone
    split at isDone
    · cases isDone
    · split at isDone
      · exact enter_ne_done _ root root [] _ isDone
      · exact createSafeDirectory_ne_done _ root _ _ isDone
  · rename_i files directories bytes rest isRead
    split at isDone
    · cases isDone
    · rename_i isTotal
      refine ⟨files, directories, bytes, ?_⟩
      rw [isRead, if_neg isTotal]

theorem finish_of_done
    {label : DirectoryReceiveLabel}
    (stepped : directoryReceiveStep base receiver label = some next)
    (isDone : next.phase = .done) :
    ∃ root files directories bytes,
      receiver.phase = .framing root ∧
        readFrameHead receiver.input =
          .ok (.finish files directories bytes, next.input) := by
  rw [directoryReceiveStep.eq_def] at stepped
  split at stepped
  · exfalso
    cases stepped
    rw [DirectoryReceiver.openStream] at isDone
    split at isDone
    · cases isDone
    · split at isDone <;> cases isDone
  · exfalso
    cases stepped
    rw [DirectoryReceiver.createRoot] at isDone
    split at isDone
    · cases isDone
    · rw [DirectoryReceiver.inspectRoot.eq_def] at isDone
      split at isDone <;> cases isDone
  · rename_i root isFraming
    cases stepped
    obtain ⟨files, directories, bytes, isRead⟩ :=
      finish_of_readFrame isFraming isDone
    exact ⟨root, files, directories, bytes, isFraming, isRead⟩
  · exfalso
    split at stepped
    · cases stepped
      cases isDone
    · cases stepped
      rw [DirectoryReceiver.makeDirectory] at isDone
      split at isDone
      · cases isDone
      · cases isDone
      · exact enter_ne_done _ _ _ _ _ isDone
      · split at isDone
        · cases isDone
        · exact enter_ne_done _ _ _ _ _ isDone
      · cases isDone
  · exfalso
    cases stepped
    rw [DirectoryReceiver.createStaging.eq_def] at isDone
    split at isDone
    · cases isDone
    · split at isDone
      · cases isDone
      · split at isDone <;> cases isDone
  · exfalso
    split at stepped
    · cases stepped
      simp only [DirectoryReceiver.copyChunk] at isDone
      split at isDone
      · cases isDone
      · split at isDone <;> cases isDone
    · cases stepped
  · exfalso
    split at stepped
    · cases stepped
    · cases stepped
      rw [DirectoryReceiver.finishContent] at isDone
      split at isDone
      · cases isDone
      · split at isDone
        · cases isDone
        · split at isDone
          · cases isDone
          · split at isDone <;> cases isDone
  · exfalso
    cases stepped
    rw [DirectoryReceiver.renameStaging.eq_def] at isDone
    split at isDone <;> cases isDone
  · exfalso
    split at stepped
    · cases stepped
      cases isDone
    · cases stepped
  · cases stepped

/-- Nothing is left behind the END frame. -/
theorem applies_input_nil
    (holds : Applies base tree stream receiver)
    {label : DirectoryReceiveLabel}
    (stepped : directoryReceiveStep base receiver label = some next)
    (isDone : next.phase = .done) : next.input = [] := by
  obtain ⟨root, files, directories, bytes, isFraming, isRead⟩ :=
    finish_of_done stepped isDone
  rw [Applies, isFraming] at holds
  obtain ⟨-, before, after, isSplit, -, isInput, -⟩ := holds
  cases after with
  | nil =>
      have endRead := readFrameHead_end (statsOf_fits stream.frames) []
      rw [List.append_nil] at endRead
      have isEnd :
          receiver.input = encodeEnd (statsOf stream.frames) := isInput
      rw [isEnd, endRead] at isRead
      exact (Prod.mk.inj (Except.ok.inj isRead)).2.symm
  | cons frame later =>
      have wellFormed := frame_wellFormed isSplit
      have headRead :=
        readFrameHead_encode wellFormed
          (encodeFrames later ++ encodeEnd (statsOf stream.frames))
      have isFront :
          receiver.input =
            frame.encode ++
              (encodeFrames later ++ encodeEnd (statsOf stream.frames)) := by
        rw [isInput, encodeFrames, List.flatMap_cons, List.append_assoc]
        rfl
      rw [isFront, headRead] at isRead
      cases frame <;> cases isRead

/-- A reception of the stream that is done has applied the frames and has taken
all of the stream. -/
theorem applies_run
    (linkFree : tree.LinkFree) {labels : List DirectoryReceiveLabel}
    (run :
      Run (directoryReceiveStep base) anyStep (.start tree stream.bytes)
        labels receiver) :
    Applies base tree stream receiver ∧
      (receiver.phase = .done → receiver.input = []) := by
  refine
    run.preserves
      (fun receiver =>
        Applies base tree stream receiver ∧
          (receiver.phase = .done → receiver.input = []))
      ?_ ⟨rfl, fun isDone => by cases isDone⟩
  intro receiver next label holds _ stepped
  exact
    ⟨applies_step linkFree holds.1 stepped,
      applies_input_nil holds.1 stepped⟩

end Receiving

/-- A reception of a part of the stream is done only if the part is all of
it. -/
theorem whole_of_done
    {base : Location} {destination : FileTree} {stream : DirectoryStream}
    {arrived : List UInt8} {receiver : DirectoryReceiver}
    {labels : List DirectoryReceiveLabel}
    (linkFree : destination.LinkFree) (isPart : arrived <+: stream.bytes)
    (run :
      Run (directoryReceiveStep base) anyStep (.start destination arrived)
        labels receiver)
    (isDone : receiver.phase = .done) :
    arrived = stream.bytes ∧
      receiver.stats = statsOf stream.frames ∧
        receiver.tree =
          receivedByAll (stream.root base)
            (stream.rootedTree base destination) stream.frames := by
  obtain ⟨rest, isRest⟩ := isPart
  have works : receiver.phase.isFailed = false := by
    rw [isDone]
    rfl
  obtain ⟨others, whole⟩ := feed_run rest run works
  have isStart :
      (DirectoryReceiver.start destination arrived).feed rest =
        .start destination stream.bytes := by
    rw [← isRest]
    rfl
  rw [isStart] at whole
  obtain ⟨applies, nothing⟩ := applies_run linkFree whole
  have isPhase : (receiver.feed rest).phase = .done := isDone
  have isNil := nothing isPhase
  have noRest : rest = [] := (List.append_eq_nil_iff.mp isNil).2
  rw [Applies, isPhase] at applies
  rw [noRest, List.append_nil] at isRest
  exact ⟨isRest, applies.1, applies.2⟩

end Quiczilla
