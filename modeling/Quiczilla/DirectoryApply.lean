import Quiczilla.DirectoryEncoding
import Quiczilla.DirectoryUpdates

/-!
# The directory receiver applies its frames

Over a tree without symbolic links, a reception of a well-formed stream is at
every moment between two frames the application of the frames read so far;
within a frame it has made some of the directories, or has some of the content
in the staging file.
-/

namespace Quiczilla

open Foundation

/-- A stream with one START frame, well-formed frames and totals that count
them. -/
structure DirectoryStream where
  rootName : String
  frames : List DirectoryFrame
  accepted : validateRelativePath .unix rootName = .ok ()
  single : (Platform.unix.parse rootName).componentCount = 1
  wellFormed : ∀ frame ∈ frames, frame.WellFormed
  fits : (describedBy frames).stats.Fits

def DirectoryStream.bytes (stream : DirectoryStream) : List UInt8 :=
  encodeStart stream.rootName ++
    (encodeFrames stream.frames ++
      encodeEnd (describedBy stream.frames).stats)

/-- The location of the root of the transfer. -/
def DirectoryStream.root (stream : DirectoryStream) (base : Location) :
    Location :=
  childLocation base stream.rootName

/-- The tree with the root of the transfer. -/
def DirectoryStream.rootedTree
    (stream : DirectoryStream) (base : Location) (tree : FileTree) :
    FileTree :=
  tree.makeDirectories [] (stream.root base)

def DirectoryFrame.isPackStart : DirectoryFrame → Bool
  | .packStart _ => true
  | _ => false

/-- The call applied the frames in their order, below a root that it made, and
returned their counts.  Only the number of packs is not among the totals that
the stream has to match, so its counter can wrap. -/
structure AppliesFrames
    (base : Location) (tree : FileTree) (stream : DirectoryStream)
    (receiver : DirectoryReceiver) : Prop where
  tree :
    receiver.tree =
      updatedByAll (stream.root base) (stream.rootedTree base tree)
        stream.frames
  files : receiver.stats.files = (describedBy stream.frames).stats.files
  directories :
    receiver.stats.directories =
      (describedBy stream.frames).stats.directories
  bytes : receiver.stats.bytes = (describedBy stream.frames).stats.bytes
  packs :
    receiver.stats.packs =
      stream.frames.countP DirectoryFrame.isPackStart % 2 ^ 64

/-! ## The invariant -/

/-- What is read next while the directories for a frame are made: they are
those of a directory frame, or those above a file whose content follows. -/
def Awaits
    (receiver : DirectoryReceiver) (rest : List UInt8)
    (frame : DirectoryFrame) (names : List String) :
    Option FileHead → Prop
  | none =>
      ∃ relative, frame = .directory relative ∧
        names = pathSegments relative ∧ receiver.input = rest
  | some head =>
      ∃ content digest,
        frame = .file head.relative content head.flag digest ∧
          head.size = content.length ∧
            names = (pathSegments head.relative).dropLast ∧
              receiver.input = content ++ (digest ++ rest)

/-- A file whose content is received into its staging file. -/
structure Stages
    (root : Location) (tree : FileTree) (receiver : DirectoryReceiver)
    (head : FileHead) (staging : Location) (copied : List UInt8) :
    Prop where
  isStaging : staging = stagingOf root head.relative
  real :
    receiver.tree.RealDirectory
      (root ++ (pathSegments head.relative).dropLast)
  isTree :
    receiver.tree =
      (tree.makeDirectories root (pathSegments head.relative).dropLast).put
        staging (.file copied)

/-- What holds within a frame; `tree` is the tree in front of it and `rest`
is the input behind it. -/
def WithinFrame
    (root : Location) (tree : FileTree) (frame : DirectoryFrame)
    (rest : List UInt8) (receiver : DirectoryReceiver) :
    DirectoryReceivePhase → Prop
  | .making top current name later file =>
      top = root ∧ ∃ made, current = root ++ made ∧
        receiver.tree = tree.makeDirectories root made ∧
          receiver.tree.RealDirectory current ∧
            Awaits receiver rest frame (made ++ name :: later) file
  | .placing top parent head =>
      top = root ∧
        parent = root ++ (pathSegments head.relative).dropLast ∧
          receiver.tree =
              tree.makeDirectories root
                (pathSegments head.relative).dropLast ∧
            receiver.tree.RealDirectory parent ∧
              Awaits receiver rest frame
                (pathSegments head.relative).dropLast (some head)
  | .copying top head staging opened copied =>
      top = root ∧ opened = staging ∧
        Stages root tree receiver head staging copied ∧
          ∃ left digest,
            frame =
                .file head.relative (copied ++ left) head.flag digest ∧
              head.size = (copied ++ left).length ∧
                receiver.input = left ++ (digest ++ rest)
  | .renaming top head staging =>
      top = root ∧
        ∃ content digest,
          Stages root tree receiver head staging content ∧
            frame = .file head.relative content head.flag digest ∧
              head.size = content.length ∧ receiver.input = rest
  | _ => False

/-- The invariant of a reception. -/
def Applies
    (base : Location) (tree : FileTree) (stream : DirectoryStream)
    (receiver : DirectoryReceiver) : Prop :=
  match receiver.phase with
  | .opening => receiver = .start tree stream.bytes
  | .creatingRoot root =>
      root = stream.root base ∧ receiver.tree = tree ∧
        receiver.stats = .start ∧
          receiver.input =
            encodeFrames stream.frames ++
              encodeEnd (statsOf stream.frames)
  | .framing root =>
      root = stream.root base ∧
        ∃ before after, stream.frames = before ++ after ∧
          receiver.stats = statsOf before ∧
            receiver.input =
                encodeFrames after ++ encodeEnd (statsOf stream.frames) ∧
              receiver.tree =
                  receivedByAll root (stream.rootedTree base tree) before ∧
                receiver.tree.RealDirectory root
  | .done =>
      receiver.stats = statsOf stream.frames ∧
        receiver.tree =
          receivedByAll (stream.root base) (stream.rootedTree base tree)
            stream.frames
  | .failed _ => True
  | phase =>
      ∃ before frame after, stream.frames = before ++ frame :: after ∧
        receiver.stats = statsOf before ∧
          WithinFrame (stream.root base)
            (receivedByAll (stream.root base) (stream.rootedTree base tree)
              before)
            frame
            (encodeFrames after ++ encodeEnd (statsOf stream.frames))
            receiver phase

/-! ## Trees -/

theorem put_put
    (tree : FileTree) (location : Location) (first second : TreeNode) :
    (tree.put location first).put location second =
      tree.put location second := by
  funext other
  by_cases same : other = location
  · rw [same, FileTree.put_same, FileTree.put_same]
  · rw [FileTree.put_other _ _ same, FileTree.put_other _ _ same,
      FileTree.put_other _ _ same]

theorem put_eq_self
    {tree : FileTree} {location : Location} {node : TreeNode}
    (isThere : tree location = some node) : tree.put location node = tree := by
  funext other
  by_cases same : other = location
  · rw [same, FileTree.put_same, isThere]
  · rw [FileTree.put_other _ _ same]

theorem linkFree_receivedBy
    {root : Location} {tree : FileTree} (linkFree : tree.LinkFree)
    (frame : DirectoryFrame) : (receivedBy root tree frame).LinkFree := by
  cases frame with
  | directory relative => exact linkFree.makeDirectories _ _
  | packStart pack => exact linkFree
  | packEnd => exact linkFree
  | file relative content flag digest =>
      have placed :=
        (linkFree.makeDirectories root (pathSegments relative).dropLast).put
          (root ++ pathSegments relative) (.file content) (by simp)
      rw [receivedBy]
      split
      · exact placed
      · exact placed.erase _

theorem linkFree_receivedByAll
    {root : Location} {tree : FileTree} (linkFree : tree.LinkFree)
    (frames : List DirectoryFrame) :
    (receivedByAll root tree frames).LinkFree := by
  induction frames using List.reverseRecOn with
  | nil => exact linkFree
  | append_singleton frames frame inductionHypothesis =>
      rw [receivedByAll_append]
      exact linkFree_receivedBy inductionHypothesis frame

/-- Renaming the staging file is what remains to be done for a file. -/
theorem renamed_eq_receivedBy
    {root : Location} {tree next : FileTree} {relative : String}
    {content digest : List UInt8} {flag : UInt8}
    (isNext :
      next =
        if stagingName (lastName relative) = lastName relative then
          (tree.makeDirectories root (pathSegments relative).dropLast).put
            (stagingOf root relative) (.file content)
        else
          (((tree.makeDirectories root
                    (pathSegments relative).dropLast).put
                (stagingOf root relative) (.file content)).put
              (root ++ (pathSegments relative).dropLast ++
                [lastName relative])
              (.file content)).erase
            (stagingOf root relative)) :
    next =
      receivedBy root tree (.file relative content flag digest) := by
  have whole :
      root ++ (pathSegments relative).dropLast ++ [lastName relative] =
        root ++ pathSegments relative := by
    rw [List.append_assoc, ← pathSegments_eq]
  by_cases same : stagingName (lastName relative) = lastName relative
  · have isFile : stagingOf root relative = root ++ pathSegments relative := by
      rw [stagingOf, same, whole]
    rw [if_pos same] at isNext
    rw [isNext, receivedBy, if_pos isFile, isFile]
    rfl
  · have different :
        stagingOf root relative ≠ root ++ pathSegments relative := by
      rw [← whole, stagingOf]
      simpa using same
    rw [if_neg same, whole] at isNext
    rw [isNext, receivedBy, if_neg different]
    funext location
    by_cases isStaging : location = stagingOf root relative
    · rw [isStaging, FileTree.erase_same, FileTree.erase_same]
    · rw [FileTree.erase_other _ isStaging, FileTree.erase_other _ isStaging]
      by_cases isFile : location = root ++ pathSegments relative
      · rw [isFile, FileTree.put_same, updatedBy, FileTree.put_same]
      · rw [FileTree.put_other _ _ isFile, FileTree.put_other _ _ isStaging,
          updatedBy, FileTree.put_other _ _ isFile]

/-! ## The steps -/

theorem encodeEnd_described
    {frames : List DirectoryFrame} (fits : (describedBy frames).stats.Fits) :
    encodeEnd (describedBy frames).stats = encodeEnd (statsOf frames) := by
  obtain ⟨isFiles, isDirectories, isBytes⟩ := statsOf_eq frames
  obtain ⟨filesFit, directoriesFit, bytesFit⟩ := fits
  rw [encodeEnd, encodeEnd, isFiles, isDirectories, isBytes,
    Nat.mod_eq_of_lt filesFit, Nat.mod_eq_of_lt directoriesFit,
    Nat.mod_eq_of_lt bytesFit]

theorem statsOf_packs (frames : List DirectoryFrame) :
    (statsOf frames).packs =
      frames.countP DirectoryFrame.isPackStart % 2 ^ 64 := by
  induction frames using List.reverseRecOn with
  | nil => rfl
  | append_singleton frames frame inductionHypothesis =>
      rw [statsOf_append, List.countP_append, List.countP_singleton]
      cases frame with
      | packStart pack =>
          simp only [DirectoryTransferStats.count, inductionHypothesis,
            Nat.mod_add_mod]
          rfl
      | directory relative => exact inductionHypothesis
      | packEnd => exact inductionHypothesis
      | file relative content flag digest => exact inductionHypothesis

section Steps

variable {base : Location} {tree : FileTree} {stream : DirectoryStream}
  {receiver : DirectoryReceiver}

theorem applies_openStream
    (isStart : receiver = .start tree stream.bytes) :
    Applies base tree stream (receiver.openStream base) := by
  subst isStart
  have startRead :=
    readStart_encodeStart stream.accepted stream.single
      (encodeFrames stream.frames ++
        encodeEnd (describedBy stream.frames).stats)
  rw [DirectoryReceiver.openStream]
  simp only [DirectoryReceiver.start, DirectoryStream.bytes, startRead,
    stream.accepted]
  exact
    ⟨rfl, rfl, rfl,
      congrArg (encodeFrames stream.frames ++ ·)
        (encodeEnd_described stream.fits)⟩

theorem applies_createRoot
    (linkFree : tree.LinkFree) (isTree : receiver.tree = tree)
    (isStats : receiver.stats = .start)
    (isInput :
      receiver.input =
        encodeFrames stream.frames ++ encodeEnd (statsOf stream.frames))
    (fails : Location → Bool) (lookupFails : Bool) :
    Applies base tree stream
      (receiver.createRoot (stream.root base) fails lookupFails) := by
  rw [DirectoryReceiver.createRoot, isTree]
  split
  · trivial
  · rename_i next created made
    have isNext := FileTree.createDirAll_linkFree linkFree made
    rw [DirectoryReceiver.inspectRoot.eq_def]
    split
    · refine ⟨rfl, [], stream.frames, rfl, isStats, isInput, isNext, ?_⟩
      change next.RealDirectory _
      rw [isNext]
      exact FileTree.makeDirectories_directories
    · trivial
    · trivial

section Frame

variable {before after : List DirectoryFrame} {frame : DirectoryFrame}
  (isFrame : stream.frames = before ++ frame :: after)
  (isStats : receiver.stats = statsOf before)

include isFrame

theorem frame_wellFormed : frame.WellFormed :=
  stream.wellFormed frame (by rw [isFrame]; simp)

include isStats

/-- A frame that describes no entry, or whose entry is complete. -/
theorem applies_nextFrame
    {next : DirectoryReceiver}
    (isPhase : next.phase = .framing (stream.root base))
    (counted : next.stats = receiver.stats.count frame)
    (isInput :
      next.input =
        encodeFrames after ++ encodeEnd (statsOf stream.frames))
    (isTree :
      next.tree =
        receivedBy (stream.root base)
          (receivedByAll (stream.root base) (stream.rootedTree base tree)
            before)
          frame)
    (real : next.tree.RealDirectory (stream.root base)) :
    Applies base tree stream next := by
  rw [Applies, isPhase]
  refine
    ⟨rfl, before ++ [frame], after, ?_, ?_, isInput, ?_, real⟩
  · rw [isFrame]
    simp
  · rw [counted, isStats, statsOf_append]
  · rw [isTree, receivedByAll_append]

/-- Some of the directories of a frame are made, and these names are left. -/
theorem applies_enter
    (made names : List String) (file : Option FileHead)
    (isTree :
      receiver.tree =
        (receivedByAll (stream.root base) (stream.rootedTree base tree)
          before).makeDirectories (stream.root base) made)
    (real : receiver.tree.RealDirectory (stream.root base ++ made))
    (awaits :
      Awaits receiver
        (encodeFrames after ++ encodeEnd (statsOf stream.frames)) frame
        (made ++ names) file) :
    Applies base tree stream
      (receiver.enter (stream.root base) (stream.root base ++ made) names
        file) := by
  cases names with
  | cons name later =>
      exact
        ⟨before, frame, after, isFrame, isStats, rfl, made, rfl, isTree,
          real, awaits⟩
  | nil =>
      rw [List.append_nil] at awaits
      cases file with
      | some head =>
          obtain ⟨content, digest, same, isSize, rfl, isInput⟩ := awaits
          exact
            ⟨before, frame, after, isFrame, isStats, rfl, rfl, isTree, real,
              content, digest, same, isSize, rfl, isInput⟩
      | none =>
          obtain ⟨relative, same, rfl, isInput⟩ := awaits
          subst same
          exact
            applies_nextFrame isFrame isStats rfl rfl isInput isTree
              real.above

theorem applies_createSafeDirectory
    (relative : String) (file : Option FileHead)
    (isTree :
      receiver.tree =
        receivedByAll (stream.root base) (stream.rootedTree base tree)
          before)
    (real : receiver.tree.RealDirectory (stream.root base))
    (awaits :
      Awaits receiver
        (encodeFrames after ++ encodeEnd (statsOf stream.frames)) frame
        (pathSegments relative) file) :
    Applies base tree stream
      (receiver.createSafeDirectory (stream.root base) relative file) := by
  rw [DirectoryReceiver.createSafeDirectory]
  split
  · trivial
  · rename_i accepted
    rw [normalNames_eq accepted]
    have entered :=
      applies_enter isFrame isStats [] (pathSegments relative) file
        (by rw [FileTree.makeDirectories_nil, isTree])
        (by rw [List.append_nil]; exact real) awaits
    rw [List.append_nil] at entered
    exact entered

theorem applies_beginFile
    (head : FileHead) {content digest : List UInt8}
    (isFile : frame = .file head.relative content head.flag digest)
    (isSize : head.size = content.length)
    (isTree :
      receiver.tree =
        receivedByAll (stream.root base) (stream.rootedTree base tree)
          before)
    (real : receiver.tree.RealDirectory (stream.root base))
    (isInput :
      receiver.input =
        content ++
          (digest ++
            (encodeFrames after ++ encodeEnd (statsOf stream.frames)))) :
    Applies base tree stream
      (receiver.beginFile (stream.root base) head) := by
  rw [DirectoryReceiver.beginFile]
  split
  · trivial
  · rename_i accepted
    by_cases flat : parentText head.relative = ""
    · rw [if_pos flat]
      have entered :=
        applies_enter isFrame isStats [] [] (some head)
          (by rw [FileTree.makeDirectories_nil, isTree])
          (by rw [List.append_nil]; exact real)
          ⟨content, digest, isFile, isSize,
            (parentText_eq_empty accepted flat).symm, isInput⟩
      rw [List.append_nil] at entered
      exact entered
    · rw [if_neg flat]
      exact
        applies_createSafeDirectory isFrame isStats _ (some head) isTree real
          ⟨content, digest, isFile, isSize, pathSegments_parentText flat,
            isInput⟩

end Frame

theorem applies_readFrame
    (holds : Applies base tree stream receiver) {root : Location}
    (isFraming : receiver.phase = .framing root) :
    Applies base tree stream (receiver.readFrame root) := by
  rw [Applies, isFraming] at holds
  obtain ⟨rfl, before, after, isSplit, isStats, isInput, isTree, real⟩ :=
    holds
  rw [DirectoryReceiver.readFrame]
  cases after with
  | nil =>
      rw [List.append_nil] at isSplit
      have endRead := readFrameHead_end (statsOf_fits stream.frames) []
      rw [List.append_nil] at endRead
      have isEnd :
          receiver.input = encodeEnd (statsOf stream.frames) := isInput
      rw [isEnd, endRead]
      simp only
      split
      · trivial
      · rw [← isSplit] at isStats isTree
        exact ⟨isStats, isTree⟩
  | cons frame later =>
      have wellFormed := frame_wellFormed isSplit
      have headRead :=
        readFrameHead_encode wellFormed
          (encodeFrames later ++ encodeEnd (statsOf stream.frames))
      have isRead :
          receiver.input =
            frame.encode ++
              (encodeFrames later ++ encodeEnd (statsOf stream.frames)) := by
        rw [isInput, encodeFrames, List.flatMap_cons, List.append_assoc]
        rfl
      rw [isRead, headRead]
      cases frame with
      | directory relative =>
          have createdFor {next : DirectoryReceiver}
              (sameStats : next.stats = statsOf before)
              (sameTree : next.tree = receiver.tree)
              (isRest :
                next.input =
                  encodeFrames later ++ encodeEnd (statsOf stream.frames)) :
              Applies base tree stream
                (next.createSafeDirectory (stream.root base) relative none) :=
            applies_createSafeDirectory isSplit sameStats relative none
              (sameTree.trans isTree) (sameTree ▸ real)
              ⟨relative, rfl, rfl, isRest⟩
          exact createdFor isStats rfl rfl
      | packStart pack =>
          exact
            applies_nextFrame isSplit isStats isFraming rfl rfl isTree real
      | packEnd =>
          exact
            applies_nextFrame isSplit isStats isFraming rfl rfl isTree real
      | file relative content flag digest =>
          have begunFor {next : DirectoryReceiver}
              (sameStats : next.stats = statsOf before)
              (sameTree : next.tree = receiver.tree)
              (isRest :
                next.input =
                  content ++ digest ++
                    (encodeFrames later ++
                      encodeEnd (statsOf stream.frames))) :
              Applies base tree stream
                (next.beginFile (stream.root base)
                  ⟨relative, content.length, flag⟩) :=
            applies_beginFile isSplit sameStats
              ⟨relative, content.length, flag⟩ rfl rfl
              (sameTree.trans isTree) (sameTree ▸ real)
              (isRest.trans (List.append_assoc _ _ _))
          exact begunFor isStats rfl rfl

theorem applies_makeDirectory
    (holds : Applies base tree stream receiver)
    {root current : Location} {name : String} {later : List String}
    {file : Option FileHead}
    (isMaking : receiver.phase = .making root current name later file) :
    Applies base tree stream
      (receiver.makeDirectory root current name later file) := by
  rw [Applies, isMaking] at holds
  obtain
    ⟨before, frame, after, isFrame, isStats, rfl, made, rfl, isTree, real,
      awaits⟩ := holds
  have spelled : made ++ name :: later = made ++ [name] ++ later := by simp
  rw [spelled] at awaits
  have looked := FileTree.symlinkMetadata_entry real name
  have created := FileTree.createDir_entry real name
  -- with the directory there, one more name of the path is made
  have entered {next : DirectoryReceiver}
      (sameStats : next.stats = receiver.stats)
      (sameInput : next.input = receiver.input)
      (isNext :
        next.tree =
          receiver.tree.put (stream.root base ++ made ++ [name])
            .directory)
      (keeps : receiver.tree.KeepsDirectories next.tree) :
      Applies base tree stream
        (next.enter (stream.root base)
          (stream.root base ++ made ++ [name]) later file) := by
    have nextReal :
        next.tree.RealDirectory (stream.root base ++ made ++ [name]) :=
      (keeps.real real).entry (by rw [isNext, FileTree.put_same])
    have nextAwaits :
        Awaits next
          (encodeFrames after ++ encodeEnd (statsOf stream.frames)) frame
          (made ++ [name] ++ later) file := by
      cases file with
      | none =>
          obtain ⟨relative, same, isPath, isInput⟩ := awaits
          exact ⟨relative, same, isPath, sameInput.trans isInput⟩
      | some head =>
          obtain ⟨content, digest, same, isSize, isPath, isInput⟩ := awaits
          exact
            ⟨content, digest, same, isSize, isPath,
              sameInput.trans isInput⟩
    have isMade :
        next.tree =
          (receivedByAll (stream.root base) (stream.rootedTree base tree)
            before).makeDirectories (stream.root base)
            (made ++ [name]) := by
      rw [isNext, isTree, FileTree.makeDirectories_concat]
    rw [List.append_assoc] at nextReal ⊢
    exact
      applies_enter isFrame (sameStats.trans isStats) (made ++ [name]) later
        file isMade nextReal nextAwaits
  rw [DirectoryReceiver.makeDirectory, looked, created]
  cases node : receiver.tree (stream.root base ++ made ++ [name]) with
  | some found =>
      cases found with
      | symlink target => trivial
      | file content => trivial
      | directory =>
          exact
            entered rfl rfl (put_eq_self node).symm
              (fun _ isDirectory => isDirectory)
  | none =>
      have keeps :=
        @FileTree.keepsDirectories_put receiver.tree
          (stream.root base ++ made ++ [name]) .directory
          (by rw [node]; simp)
      exact entered rfl rfl rfl keeps

theorem applies_createStaging
    (linkFree : tree.LinkFree)
    (holds : Applies base tree stream receiver)
    {root parent : Location} {head : FileHead}
    (isPlacing : receiver.phase = .placing root parent head)
    (lookupFails createFails : Bool) :
    Applies base tree stream
      (receiver.createStaging root parent head lookupFails createFails) := by
  rw [Applies, isPlacing] at holds
  obtain
    ⟨before, frame, after, isFrame, isStats, rfl, rfl, isTree, real, content,
      digest, isFile, isSize, _, isInput⟩ := holds
  have wellFormed := frame_wellFormed isFrame
  subst isFile
  have accepted := wellFormed.1
  have receivedFree : receiver.tree.LinkFree := by
    rw [isTree]
    exact
      (linkFree_receivedByAll (linkFree.makeDirectories _ _)
          before).makeDirectories _ _
  rw [DirectoryReceiver.createStaging.eq_def]
  split
  · trivial
  · by_cases failed : createFails = true
    · rw [if_pos failed]
      trivial
    · rw [if_neg failed, stagingLocation_eq accepted]
      split
      · trivial
      · rename_i location next created
        obtain ⟨rfl, notDirectory, isNext⟩ :=
          FileTree.createFile_entry real (receivedFree _) created
        have keeps :=
          FileTree.keepsDirectories_put _ (.file []) notDirectory
        refine
          ⟨before, _, after, isFrame, isStats, rfl, rfl,
            { isStaging := rfl
              real := ?_
              isTree := ?_ },
            content, digest, rfl, isSize, isInput⟩
        · change next.RealDirectory _
          rw [isNext]
          exact keeps.real real
        · change next = _
          rw [isNext, isTree]

theorem applies_copyChunk
    (holds : Applies base tree stream receiver)
    {root : Location} {head : FileHead} {staging opened : Location}
    {copied : List UInt8}
    (isCopying :
      receiver.phase = .copying root head staging opened copied)
    (unfinished : copied.length < head.size) (limit : Nat)
    (written : Option Nat) :
    Applies base tree stream
      (receiver.copyChunk root head staging opened copied limit written) := by
  rw [Applies, isCopying] at holds
  obtain
    ⟨before, frame, after, isFrame, isStats, rfl, rfl, stages, left, digest,
      isFile, isSize, isInput⟩ := holds
  -- the limit of the read keeps it within the content of the file
  have bounded :
      max 1 (min limit (min (head.size - copied.length) fileChunkSize)) ≤
        left.length := by
    rw [List.length_append] at isSize
    have inContent : head.size - copied.length = left.length := by omega
    rw [inContent]
    exact
      max_le (by omega) ((min_le_right _ _).trans (min_le_left _ _))
  simp only [DirectoryReceiver.copyChunk]
  generalize
    max 1 (min limit (min (head.size - copied.length) fileChunkSize)) =
      count at bounded
  have isChunk : receiver.input.take count = left.take count := by
    rw [isInput, List.take_append_of_le_length bounded]
  have chunkLength : (left.take count).length = count :=
    List.length_take_of_le bounded
  rw [isChunk]
  split
  · trivial
  · cases written with
    | some count => trivial
    | none =>
        have isContent : receiver.tree opened = some (.file copied) := by
          rw [stages.isTree, FileTree.put_same]
        have isNext := appendFile_eq isContent (left.take count)
        have keeps :=
          @FileTree.keepsDirectories_put receiver.tree opened
            (.file (copied ++ left.take count)) (by rw [isContent]; simp)
        have whole :
            copied ++ left = copied ++ left.take count ++ left.drop count := by
          rw [List.append_assoc, List.take_append_drop]
        rw [whole] at isFile isSize
        refine
          ⟨before, frame, after, isFrame, isStats, rfl, rfl,
            { isStaging := stages.isStaging
              real := ?_
              isTree := ?_ },
            left.drop count, digest, isFile, isSize, ?_⟩
        · change (receiver.tree.appendFile _ _).RealDirectory _
          rw [isNext]
          exact keeps.real stages.real
        · change receiver.tree.appendFile _ _ = _
          rw [isNext, stages.isTree, put_put]
        · change receiver.input.drop _ = _
          rw [chunkLength, isInput, List.drop_append_of_le_length bounded]

theorem applies_finishContent
    (holds : Applies base tree stream receiver)
    {root : Location} {head : FileHead} {staging opened : Location}
    {copied : List UInt8}
    (isCopying :
      receiver.phase = .copying root head staging opened copied)
    (finished : ¬copied.length < head.size)
    (flushFails removeFails : Bool) :
    Applies base tree stream
      (receiver.finishContent root head staging copied flushFails
        removeFails) := by
  rw [Applies, isCopying] at holds
  obtain
    ⟨before, frame, after, isFrame, isStats, rfl, rfl, stages, left, digest,
      isFile, isSize, isInput⟩ := holds
  have nothingLeft : left = [] := by
    rw [List.length_append] at isSize
    exact List.length_eq_zero_iff.mp (by omega)
  subst nothingLeft
  rw [List.append_nil] at isFile isSize
  have wellFormed := frame_wellFormed isFrame
  rw [isFile] at wellFormed
  have isDigest := wellFormed.2.2
  have toRenaming {next : DirectoryReceiver}
      (isPhase :
        next.phase = .renaming (stream.root base) head opened)
      (sameStats : next.stats = receiver.stats)
      (sameTree : next.tree = receiver.tree)
      (isRest :
        next.input =
          encodeFrames after ++ encodeEnd (statsOf stream.frames)) :
      Applies base tree stream next := by
    rw [Applies, isPhase]
    exact
      ⟨before, frame, after, isFrame, sameStats.trans isStats, rfl, copied,
        digest,
        { isStaging := stages.isStaging
          real := sameTree ▸ stages.real
          isTree := sameTree.trans stages.isTree },
        isFile, isSize, isRest⟩
  rw [DirectoryReceiver.finishContent]
  split
  · trivial
  · by_cases noFlag : head.flag = 0
    · rw [if_pos noFlag] at isDigest
      subst isDigest
      rw [if_pos noFlag]
      exact toRenaming rfl rfl rfl isInput
    · rw [if_neg noFlag] at isDigest
      subst isDigest
      have digestRead :
          readExact 32
              (sha256 copied ++
                (encodeFrames after ++ encodeEnd (statsOf stream.frames))) =
            .ok
              (sha256 copied,
                encodeFrames after ++ encodeEnd (statsOf stream.frames)) :=
        readExact_append (length_sha256 copied) _
      have isDigestNext :
          receiver.input =
            sha256 copied ++
              (encodeFrames after ++ encodeEnd (statsOf stream.frames)) :=
        isInput
      rw [if_neg noFlag, isDigestNext, digestRead]
      simp only [if_true]
      exact toRenaming rfl rfl rfl rfl

theorem applies_renameStaging
    (holds : Applies base tree stream receiver)
    {root : Location} {head : FileHead} {staging : Location}
    (isRenaming : receiver.phase = .renaming root head staging)
    (fails : Bool) :
    Applies base tree stream
      (receiver.renameStaging root head staging fails) := by
  rw [Applies, isRenaming] at holds
  obtain
    ⟨before, frame, after, isFrame, isStats, rfl, content, digest, stages,
      isFile, isSize, isInput⟩ := holds
  have wellFormed := frame_wellFormed isFrame
  rw [isFile] at wellFormed
  have accepted := wellFormed.1
  rw [DirectoryReceiver.renameStaging.eq_def]
  split
  · rename_i source target next renamed
    have isContent :
        receiver.tree (stagingOf (stream.root base) head.relative) =
          some (.file content) := by
      rw [stages.isTree, stages.isStaging, FileTree.put_same]
    have isChild := childLocation_split accepted (stream.root base)
    rw [stages.isStaging, isChild] at renamed
    obtain ⟨rfl, rfl, notDirectory, isNext⟩ :=
      FileTree.rename_entry stages.real isContent renamed
    obtain ⟨_, keeps, _⟩ := renamed_tree isContent notDirectory isNext
    rw [stages.isTree, stages.isStaging] at isNext
    refine
      applies_nextFrame isFrame isStats rfl ?_ isInput ?_
        (keeps.real stages.real).above
    · rw [isFile, DirectoryTransferStats.count, ← isSize]
    · rw [isFile]
      exact renamed_eq_receivedBy isNext
  · trivial

theorem applies_step
    (linkFree : tree.LinkFree)
    (holds : Applies base tree stream receiver)
    {label : DirectoryReceiveLabel} {next : DirectoryReceiver}
    (stepped : directoryReceiveStep base receiver label = some next) :
    Applies base tree stream next := by
  rw [directoryReceiveStep.eq_def] at stepped
  split at stepped
  · rename_i isPhase
    cases stepped
    rw [Applies, isPhase] at holds
    exact applies_openStream holds
  · rename_i isPhase
    cases stepped
    rw [Applies, isPhase] at holds
    obtain ⟨rfl, isTree, isStats, isInput⟩ := holds
    exact applies_createRoot linkFree isTree isStats isInput _ _
  · rename_i isPhase
    cases stepped
    exact applies_readFrame holds isPhase
  · rename_i isPhase
    split at stepped
    · cases stepped
      trivial
    · cases stepped
      exact applies_makeDirectory holds isPhase
  · rename_i isPhase
    cases stepped
    exact applies_createStaging linkFree holds isPhase _ _
  · rename_i isPhase
    split at stepped
    · rename_i unfinished
      cases stepped
      exact applies_copyChunk holds isPhase unfinished _ _
    · cases stepped
  · rename_i isPhase
    split at stepped
    · cases stepped
    · rename_i finished
      cases stepped
      exact applies_finishContent holds isPhase finished _ _
  · rename_i isPhase
    cases stepped
    exact applies_renameStaging holds isPhase _
  · split at stepped
    · cases stepped
      trivial
    · cases stepped
  · cases stepped

end Steps

/-! ## The whole call -/

/-- The staging names of the files do not meet anything that the stream or the
destination has. -/
def DirectoryStream.StagingHarmless
    (stream : DirectoryStream) (base : Location) (tree : FileTree) : Prop :=
  Quiczilla.StagingHarmless (stream.root base) tree stream.frames

/-- The root of the transfer is above every staging location. -/
theorem rootedTree_staging
    {base : Location} {tree : FileTree} {stream : DirectoryStream}
    {frame : DirectoryFrame} {location : Location}
    (staged : frame.StagedAt (stream.root base) location) :
    stream.rootedTree base tree location = tree location := by
  cases frame with
  | file relative content flag digest =>
      obtain ⟨rfl, _⟩ := staged
      refine if_neg ?_
      rintro ⟨count, inside, same⟩
      have lengths := congrArg List.length same
      rw [stagingOf, List.append_assoc, List.length_append,
        List.length_append, List.length_singleton, List.nil_append,
        List.length_take] at lengths
      omega
  | directory relative => exact absurd staged id
  | packStart pack => exact absurd staged id
  | packEnd => exact absurd staged id

theorem stagingHarmless_rooted
    (base : Location) (tree : FileTree) (stream : DirectoryStream) :
    StagingHarmless (stream.root base) (stream.rootedTree base tree)
        stream.frames ↔
      stream.StagingHarmless base tree := by
  constructor
  · intro harmless before frame after location split staged
    rw [← @rootedTree_staging base tree stream frame location staged]
    exact harmless before frame after location split staged
  · intro harmless before frame after location split staged
    rw [rootedTree_staging staged]
    exact harmless before frame after location split staged

/-- Over a tree without links, a call that ends without an error applied its
frames exactly when the staging names were harmless. -/
theorem directory_applied_exactly
    (base : Location) (tree : FileTree) (linkFree : tree.LinkFree)
    (stream : DirectoryStream) (labels : List DirectoryReceiveLabel)
    (receiver : DirectoryReceiver)
    (run :
      Run (directoryReceiveStep base) anyStep (.start tree stream.bytes)
        labels receiver)
    (finished : receiver.phase = .done) :
    AppliesFrames base tree stream receiver ↔
      stream.StagingHarmless base tree := by
  have holds : Applies base tree stream receiver :=
    run.preserves (Applies base tree stream)
      (fun _ _ _ holds _ stepped => applies_step linkFree holds stepped) rfl
  rw [Applies, finished] at holds
  obtain ⟨isStats, isTree⟩ := holds
  rw [← stagingHarmless_rooted, ← receivedByAll_eq_updatedByAll_iff,
    ← isTree]
  constructor
  · intro applies
    exact applies.tree
  · intro isUpdated
    obtain ⟨isFiles, isDirectories, isBytes⟩ := statsOf_eq stream.frames
    obtain ⟨filesFit, directoriesFit, bytesFit⟩ := stream.fits
    exact
      { tree := isUpdated
        files := by rw [isStats, isFiles, Nat.mod_eq_of_lt filesFit]
        directories := by
          rw [isStats, isDirectories, Nat.mod_eq_of_lt directoriesFit]
        bytes := by rw [isStats, isBytes, Nat.mod_eq_of_lt bytesFit]
        packs := by rw [isStats, statsOf_packs] }

/-- A stream with a directory and a file in it. -/
def nestedStream : DirectoryStream where
  rootName := "d"
  frames :=
    [.packStart 0, .directory "nested", .file "nested/a" [7] 0 [], .packEnd]
  accepted := by decide +kernel
  single := by decide +kernel
  wellFormed := by
    have isDirectory :
        validateRelativePath .unix "nested" = .ok () := by
      decide +kernel
    have isFile : validateRelativePath .unix "nested/a" = .ok () := by
      decide +kernel
    simp [DirectoryFrame.WellFormed, isDirectory, isFile]
  fits := by decide +kernel

def nestedLabels : List DirectoryReceiveLabel :=
  [.openStream, .createRoot (fun _ => false) false, .readFrame, .readFrame,
    .makeDirectory false, .readFrame, .makeDirectory false,
    .createStaging false false, .copyChunk 1 none,
    .finishContent false false, .renameStaging false, .readFrame,
    .readFrame]

theorem emptyHome_linkFree : emptyHome.LinkFree := by
  intro location target isLink
  rw [emptyHome] at isLink
  split at isLink <;> cases isLink

theorem directory_applied_nested :
    ∃ receiver,
      Run (directoryReceiveStep ["home"]) anyStep
          (.start emptyHome nestedStream.bytes) nestedLabels receiver ∧
        receiver.phase = .done ∧
          AppliesFrames ["home"] emptyHome nestedStream receiver := by
  have ran :
      (replay (directoryReceiveStep ["home"])
          (.start emptyHome nestedStream.bytes) nestedLabels).map
          DirectoryReceiver.phase =
        some .done := by
    decide +kernel
  obtain ⟨receiver, reached, finished⟩ := Option.map_eq_some_iff.mp ran
  have staging :
      stagingOf (nestedStream.root ["home"]) "nested/a" =
        ["home", "d", "nested", ".a.quic-part"] := by
    decide +kernel
  have unnamed :
      ∀ frame ∈ nestedStream.frames,
        ¬frame.Names (nestedStream.root ["home"])
            ["home", "d", "nested", ".a.quic-part"] := by
    decide +kernel
  have harmless : nestedStream.StagingHarmless ["home"] emptyHome := by
    intro before frame after location split staged
    have isFrame : frame ∈ nestedStream.frames := by
      rw [split]
      simp
    have isStaging :
        location = ["home", "d", "nested", ".a.quic-part"] := by
      simp only [nestedStream, List.mem_cons, List.not_mem_nil,
        or_false] at isFrame
      rcases isFrame with rfl | rfl | rfl | rfl
      · exact absurd staged id
      · exact absurd staged id
      · exact staged.1.trans staging
      · exact absurd staged id
    subst isStaging
    refine .inr ⟨by decide, ?_⟩
    intro earlier member
    refine unnamed earlier ?_
    rw [split]
    exact List.mem_append_left _ member
  have run := run_of_replay reached
  exact
    ⟨receiver, run, finished,
      (directory_applied_exactly ["home"] emptyHome emptyHome_linkFree
          nestedStream nestedLabels receiver run finished).mpr
        harmless⟩

/-- A stream with the one file `a`. -/
def fileStream : DirectoryStream where
  rootName := "d"
  frames := [.file "a" [7] 0 []]
  accepted := by decide +kernel
  single := by decide +kernel
  wellFormed := by
    have isFile : validateRelativePath .unix "a" = .ok () := by
      decide +kernel
    simp [DirectoryFrame.WellFormed, isFile]
  fits := by decide +kernel

/-- A destination with a file that no frame of the stream names. -/
def neighbourHome : FileTree := fun location =>
  if location = ["home"] then some .directory
  else if location = ["home", "d"] then some .directory
  else if location = ["home", "d", ".a.quic-part"] then some (.file [1, 2])
  else none

/-- The neighbour is lost. -/
theorem staging_neighbour_lost :
    neighbourHome.LinkFree ∧
      ∃ receiver,
        Run (directoryReceiveStep ["home"]) anyStep
            (.start neighbourHome fileStream.bytes) oneFileLabels
            receiver ∧
          receiver.phase = .done ∧
            neighbourHome ["home", "d", ".a.quic-part"] =
                some (.file [1, 2]) ∧
              receiver.tree ["home", "d", ".a.quic-part"] = none ∧
                ¬AppliesFrames ["home"] neighbourHome fileStream
                    receiver := by
  refine ⟨?_, ?_⟩
  · intro location target isLink
    rw [neighbourHome] at isLink
    split at isLink
    · cases isLink
    · split at isLink
      · cases isLink
      · split at isLink <;> cases isLink
  · have ran :
        (replay (directoryReceiveStep ["home"])
            (.start neighbourHome fileStream.bytes) oneFileLabels).map
            (fun receiver =>
              (receiver.phase,
                receiver.tree ["home", "d", ".a.quic-part"])) =
          some (.done, none) := by
      decide +kernel
    have asked :
        updatedByAll (fileStream.root ["home"])
            (fileStream.rootedTree ["home"] neighbourHome)
            fileStream.frames ["home", "d", ".a.quic-part"] =
          some (.file [1, 2]) := by
      decide +kernel
    obtain ⟨receiver, reached, same⟩ := Option.map_eq_some_iff.mp ran
    injection same with finished isLost
    refine
      ⟨receiver, run_of_replay reached, finished, by decide, isLost, ?_⟩
    intro applies
    rw [applies.tree, asked] at isLost
    cases isLost

end Quiczilla
