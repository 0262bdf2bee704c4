import Quiczilla.DirectoryJail

/-!
# Files appear at their paths complete or not at all

The history variable of this module lists the attempts of the receiver to read
the head of a frame.  At every point of a run over a tree without symbolic
links, a path that is no staging path of a file frame in that list holds what
it held at the beginning, a new directory, or the complete content of a file
frame.

A receive that fails leaves the previous destination of its file as it was if
the staging path is not the destination itself, which it is for one file name.
-/

namespace Quiczilla

open Foundation

/-! ## The frames read so far -/

/-- The outcome of `readFrameHead`, and the tree at that time. -/
structure FrameRead where
  root : Location
  outcome : Except String (FrameHead × List UInt8)
  tree : FileTree

/-- What the loop of `receive_directory` read. -/
def noteFrame (receiver : DirectoryReceiver)
    (label : DirectoryReceiveLabel) (_ : DirectoryReceiver)
    (frames : List FrameRead) : List FrameRead :=
  match receiver.phase, label with
  | .framing root, .readFrame =>
      frames ++ [⟨root, readFrameHead receiver.input, receiver.tree⟩]
  | .framing root, .aborted abort =>
      frames ++ [⟨root, .error abort.text, receiver.tree⟩]
  | _, _ => frames

/-- The head of a file frame was read, with these bytes behind it. -/
def FrameRead.IsFile
    (read : FrameRead) (head : FileHead) (behind : List UInt8) : Prop :=
  read.outcome = .ok (.file head.relative head.size head.flag, behind)

/-- `partial`, the staging path of a file, next to its destination. -/
def stagingPath (root : Location) (head : FileHead) : Location :=
  stagingLocation (childLocation root head.relative).dropLast head

def IsStagingPath (frames : List FrameRead) (path : Location) : Prop :=
  ∃ read ∈ frames, ∃ head behind, read.IsFile head behind ∧
    path = stagingPath read.root head

/-- The complete content of a file frame for the path was received: it is as
long as announced, and the digest of a flagged file matched. -/
def ReceivedFile
    (receiver : DirectoryReceiver) (frames : List FrameRead)
    (path : Location) (content : List UInt8) : Prop :=
  ∃ read ∈ frames, ∃ head digest rest,
    read.IsFile head (content ++ digest ++ rest) ∧
      path = childLocation read.root head.relative ∧
        content.length = head.size ∧
          digest = (if head.flag = 0 then [] else sha256 content) ∧
            receiver.input <:+ rest

/-- The path holds what it held, a new directory or a complete file. -/
def OldOrComplete
    (tree : FileTree) (receiver : DirectoryReceiver)
    (frames : List FrameRead) (path : Location) : Prop :=
  receiver.tree path = tree path ∨
    tree path = none ∧ receiver.tree path = some .directory ∨
      ∃ content, receiver.tree path = some (.file content) ∧
        ReceivedFile receiver frames path content

/-- The destination of the file whose frame was read last holds what it held
then. -/
def DestinationKept (frames : List FrameRead) (tree : FileTree) : Prop :=
  ∀ read, frames.getLast? = some read →
    ∀ head behind, read.IsFile head behind →
      tree (childLocation read.root head.relative) =
        read.tree (childLocation read.root head.relative)

/-- Each file is replaced as a whole, and by a receive that fails not at
all. -/
structure ReplacesWholeFiles
    (tree : FileTree) (receiver : DirectoryReceiver)
    (frames : List FrameRead) : Prop where
  settled :
    ∀ path, ¬IsStagingPath frames path →
      OldOrComplete tree receiver frames path
  failed :
    ∀ reason, receiver.phase = .failed reason →
      DestinationKept frames receiver.tree

/-- When a staging file is created, its path is not the destination. -/
def PhaseApart : DirectoryReceivePhase → Prop
  | .placing root _ head =>
      stagingPath root head ≠ childLocation root head.relative
  | _ => True

instance : ∀ phase, Decidable (PhaseApart phase)
  | .placing _ _ _ => inferInstanceAs (Decidable (_ ≠ _))
  | .opening => .isTrue trivial
  | .creatingRoot _ => .isTrue trivial
  | .framing _ => .isTrue trivial
  | .making _ _ _ _ _ => .isTrue trivial
  | .copying _ _ _ _ _ => .isTrue trivial
  | .renaming _ _ _ => .isTrue trivial
  | .done => .isTrue trivial
  | .failed _ => .isTrue trivial

def StagingApart
    (watched : DirectoryReceiver × List FrameRead)
    (_ : DirectoryReceiveLabel) : Prop :=
  PhaseApart watched.1.phase

instance (watched : DirectoryReceiver × List FrameRead)
    (label : DirectoryReceiveLabel) :
    Decidable (StagingApart watched label) :=
  inferInstanceAs (Decidable (PhaseApart _))

/-- `receive_directory` and the frames that it read. -/
def atomicStep (base : Location) :
    DirectoryReceiver × List FrameRead → DirectoryReceiveLabel →
      Option (DirectoryReceiver × List FrameRead) :=
  withHistory (directoryReceiveStep base) noteFrame

/-! ## The invariant -/

/-- The last frame is this file, of which `taken` was read behind the head;
its destination is still as it was. -/
def Reading
    (receiver : DirectoryReceiver) (frames : List FrameRead)
    (root : Location) (head : FileHead) (taken : List UInt8) : Prop :=
  validateRelativePath .unix head.relative = .ok () ∧
    ∃ earlier read, frames = earlier ++ [read] ∧ read.root = root ∧
      read.IsFile head (taken ++ receiver.input) ∧
        receiver.tree (childLocation root head.relative) =
          read.tree (childLocation root head.relative)

/-- The directories being made lead to the parent of this file, or belong to
a directory frame. -/
def MakesParentOf
    (receiver : DirectoryReceiver) (frames : List FrameRead)
    (root parent : Location) : Option FileHead → Prop
  | none =>
      ∀ read, frames.getLast? = some read →
        ∀ head behind, ¬read.IsFile head behind
  | some head =>
      Reading receiver frames root head [] ∧
        parent = (childLocation root head.relative).dropLast

/-- The staging file of the frame that is being received. -/
structure StagingFile
    (receiver : DirectoryReceiver) (root : Location) (head : FileHead)
    (staging : Location) (content : List UInt8) : Prop where
  isStaging : staging = stagingPath root head
  real :
    receiver.tree.RealDirectory (childLocation root head.relative).dropLast
  isFile : receiver.tree staging = some (.file content)
  apart : staging ≠ childLocation root head.relative

def AtomicPhase
    (receiver : DirectoryReceiver) (frames : List FrameRead) :
    DirectoryReceivePhase → Prop
  | .opening => frames = []
  | .creatingRoot _ => frames = []
  | .framing root => receiver.tree.RealDirectory root
  | .making root current name rest file =>
      receiver.tree.RealDirectory current ∧ root <+: current ∧
        MakesParentOf receiver frames root (current ++ name :: rest) file
  | .placing root parent head =>
      receiver.tree.RealDirectory parent ∧
        Reading receiver frames root head [] ∧
          parent = (childLocation root head.relative).dropLast
  | .copying root head staging opened copied =>
      Reading receiver frames root head copied ∧
        StagingFile receiver root head staging copied ∧
          opened = staging ∧ copied.length ≤ head.size
  | .renaming root head staging =>
      ∃ content digest,
        Reading receiver frames root head (content ++ digest) ∧
          StagingFile receiver root head staging content ∧
            content.length = head.size ∧
              digest = if head.flag = 0 then [] else sha256 content
  | .done => True
  | .failed _ => DestinationKept frames receiver.tree

/-- Nothing but staging paths has changed, apart from new directories and
complete files. -/
structure Settled
    (tree : FileTree) (receiver : DirectoryReceiver)
    (frames : List FrameRead) : Prop where
  linkFree : receiver.tree.LinkFree
  settled :
    ∀ path, ¬IsStagingPath frames path →
      OldOrComplete tree receiver frames path

structure AtomicReceive
    (tree : FileTree) (receiver : DirectoryReceiver)
    (frames : List FrameRead) : Prop
    extends Settled tree receiver frames where
  inPhase : AtomicPhase receiver frames receiver.phase

theorem AtomicReceive.replacesWholeFiles
    {tree : FileTree} {receiver : DirectoryReceiver}
    {frames : List FrameRead}
    (atomic : AtomicReceive tree receiver frames) :
    ReplacesWholeFiles tree receiver frames where
  settled := atomic.settled
  failed := by
    intro reason isFailed
    have inPhase := atomic.inPhase
    rw [isFailed] at inPhase
    exact inPhase

/-! ## What a step keeps -/

theorem IsStagingPath.later
    {frames later : List FrameRead} {path : Location}
    (isStaging : IsStagingPath frames path) (longer : frames <+: later) :
    IsStagingPath later path := by
  obtain ⟨read, member, isPath⟩ := isStaging
  exact ⟨read, longer.subset member, isPath⟩

theorem ReceivedFile.later
    {receiver next : DirectoryReceiver} {frames later : List FrameRead}
    {path : Location} {content : List UInt8}
    (received : ReceivedFile receiver frames path content)
    (longer : frames <+: later) (shorter : next.input <:+ receiver.input) :
    ReceivedFile next later path content := by
  obtain ⟨read, member, head, digest, rest, isFile, isPath, long, isDigest,
    behind⟩ := received
  exact
    ⟨read, longer.subset member, head, digest, rest, isFile, isPath, long,
      isDigest, shorter.trans behind⟩

section Steps

variable {base : Location} {tree : FileTree}
  {receiver next : DirectoryReceiver} {frames later : List FrameRead}

/-- A step that changes staging paths, makes directories or puts complete
files in their places. -/
theorem Settled.change
    (settled : Settled tree receiver frames)
    (linkFree : next.tree.LinkFree) (longer : frames <+: later)
    (shorter : next.input <:+ receiver.input)
    (changed :
      ∀ path, ¬IsStagingPath later path →
        OldOrComplete receiver.tree next later path) :
    Settled tree next later where
  linkFree := linkFree
  settled := by
    intro path notStaging
    have before :=
      settled.settled path fun isStaging =>
        notStaging (isStaging.later longer)
    rcases changed path notStaging with
      same | ⟨isNone, isDirectory⟩ | isComplete
    · rw [OldOrComplete, same]
      rcases before with old | isNew | ⟨content, isFile, received⟩
      · exact .inl old
      · exact .inr (.inl isNew)
      · exact
          .inr (.inr ⟨content, isFile, received.later longer shorter⟩)
    · rcases before with old | ⟨_, isNew⟩ | ⟨content, isFile, _⟩
      · exact .inr (.inl ⟨old ▸ isNone, isDirectory⟩)
      · rw [isNone] at isNew
        cases isNew
      · rw [isNone] at isFile
        cases isFile
    · exact .inr (.inr isComplete)

theorem Settled.sameTree
    (settled : Settled tree receiver frames)
    (isTree : next.tree = receiver.tree) (longer : frames <+: later)
    (shorter : next.input <:+ receiver.input) : Settled tree next later :=
  settled.change (isTree ▸ settled.linkFree) longer shorter
    (fun path _ => .inl (congrFun isTree path))

theorem Settled.grow
    (settled : Settled tree receiver frames)
    (grows : receiver.tree.GrowsDirectories next.tree)
    (shorter : next.input <:+ receiver.input) :
    Settled tree next frames := by
  refine
    settled.change (settled.linkFree.grow grows) List.prefix_rfl shorter ?_
  intro path _
  rcases grows path with same | isNew
  · exact .inl same
  · exact .inr (.inl isNew)

/-- A step that puts a file at a staging path. -/
theorem Settled.stage
    (settled : Settled tree receiver frames) {staging : Location}
    (isStaging : IsStagingPath frames staging) {content : List UInt8}
    (isTree : next.tree = receiver.tree.put staging (.file content))
    (shorter : next.input <:+ receiver.input) :
    Settled tree next frames := by
  refine settled.change ?_ List.prefix_rfl shorter ?_
  · rw [isTree]
    exact settled.linkFree.put _ _ (by simp)
  · intro path notStaging
    have different : path ≠ staging := by
      rintro rfl
      exact notStaging isStaging
    exact .inl ((congrFun isTree path).trans
      (FileTree.put_other _ _ different))

theorem Settled.unstage
    (settled : Settled tree receiver frames) {staging : Location}
    (isStaging : IsStagingPath frames staging)
    (isTree : next.tree = receiver.tree.erase staging)
    (shorter : next.input <:+ receiver.input) :
    Settled tree next frames := by
  refine settled.change ?_ List.prefix_rfl shorter ?_
  · rw [isTree]
    exact settled.linkFree.erase _
  · intro path notStaging
    have different : path ≠ staging := by
      rintro rfl
      exact notStaging isStaging
    exact .inl ((congrFun isTree path).trans
      (FileTree.erase_other _ different))

theorem Settled.fail
    (settled : Settled tree receiver frames)
    (kept : DestinationKept frames receiver.tree) (reason : String) :
    AtomicReceive tree (receiver.fail reason) frames where
  toSettled := settled.sameTree rfl List.prefix_rfl List.suffix_rfl
  inPhase := kept

theorem destinationKept_nil (tree : FileTree) : DestinationKept [] tree := by
  intro read isLast
  cases isLast

theorem FrameRead.IsFile.unique
    {read : FrameRead} {head other : FileHead} {behind rest : List UInt8}
    (isFile : read.IsFile head behind) (isOther : read.IsFile other rest) :
    head = other := by
  rw [FrameRead.IsFile] at isFile isOther
  rw [isFile] at isOther
  cases head
  cases other
  cases isOther
  rfl

theorem Reading.kept
    {root : Location} {head : FileHead} {taken : List UInt8}
    (reading : Reading receiver frames root head taken) :
    DestinationKept frames receiver.tree := by
  obtain ⟨_, earlier, read, rfl, rfl, isFile, same⟩ := reading
  intro other isLast another behind isOther
  rw [List.getLast?_concat] at isLast
  cases isLast
  rw [isOther.unique isFile]
  exact same

theorem Reading.isStagingPath
    {root : Location} {head : FileHead} {taken : List UInt8}
    (reading : Reading receiver frames root head taken) :
    IsStagingPath frames (stagingPath root head) := by
  obtain ⟨_, earlier, read, rfl, rfl, isFile, _⟩ := reading
  exact
    ⟨read, List.mem_append_right _ List.mem_cons_self, head, _, isFile, rfl⟩

/-- The file is still being read after a step that leaves its destination as
it is. -/
theorem Reading.proceed
    {root : Location} {head : FileHead} {taken more : List UInt8}
    (reading : Reading receiver frames root head taken)
    (isInput : receiver.input = more ++ next.input)
    (same :
      next.tree (childLocation root head.relative) =
        receiver.tree (childLocation root head.relative)) :
    Reading next frames root head (taken ++ more) := by
  obtain ⟨accepted, earlier, read, isFrames, isRoot, isFile, before⟩ :=
    reading
  rw [isInput, ← List.append_assoc] at isFile
  exact
    ⟨accepted, earlier, read, isFrames, isRoot, isFile, same.trans before⟩

theorem atomic_openStream
    (atomic : AtomicReceive tree receiver frames)
    (isOpening : receiver.phase = .opening) :
    AtomicReceive tree (receiver.openStream base) frames := by
  have noFrames := atomic.inPhase
  rw [isOpening] at noFrames
  change frames = [] at noFrames
  subst noFrames
  have failed (reason : String) :
      AtomicReceive tree (receiver.fail reason) [] :=
    atomic.fail (destinationKept_nil _) reason
  rw [DirectoryReceiver.openStream]
  split
  · exact failed _
  · split
    · exact failed _
    · rename_i isRoot _ _
      exact
        { toSettled :=
            atomic.sameTree rfl List.prefix_rfl (readStart_suffix isRoot)
          inPhase := rfl }

theorem atomic_createRoot
    (atomic : AtomicReceive tree receiver frames) {root : Location}
    (isCreating : receiver.phase = .creatingRoot root)
    (fails : Location → Bool) (lookupFails : Bool) :
    AtomicReceive tree (receiver.createRoot root fails lookupFails)
      frames := by
  have noFrames := atomic.inPhase
  rw [isCreating] at noFrames
  change frames = [] at noFrames
  subst noFrames
  have grows :=
    FileTree.createDirAllReversed_grows fails receiver.tree root.reverse
  have settled (made : FileTree) (created : List Location)
      (isMade :
        (receiver.tree.createDirAllReversed fails root.reverse).tree =
          made) :
      Settled tree (receiver.act made created) [] := by
    subst isMade
    exact atomic.grow grows List.suffix_rfl
  rw [DirectoryReceiver.createRoot, FileTree.createDirAll]
  split
  · rename_i made created _ isMade
    have isTree := congrArg FileTree.MadeAll.tree isMade
    exact (settled made created isTree).fail (destinationKept_nil _) _
  · rename_i made created isMade
    have isTree := congrArg FileTree.MadeAll.tree isMade
    have inspected := settled made created isTree
    rw [DirectoryReceiver.inspectRoot.eq_def]
    split
    · rename_i isDirectory
      exact
        { toSettled :=
            inspected.sameTree rfl List.prefix_rfl List.suffix_rfl
          inPhase :=
            FileTree.symlinkMetadata_linkFree inspected.linkFree
              isDirectory }
    · exact inspected.fail (destinationKept_nil _) _
    · exact inspected.fail (destinationKept_nil _) _

theorem MakesParentOf.kept
    {root parent : Location} {file : Option FileHead}
    (makes : MakesParentOf receiver frames root parent file) :
    DestinationKept frames receiver.tree := by
  cases file with
  | none =>
      intro read isLast head behind isFile
      exact absurd isFile (makes read isLast head behind)
  | some head => exact makes.1.kept

theorem Settled.enter
    (settled : Settled tree receiver frames)
    {root current : Location} {names : List String}
    {file : Option FileHead}
    (real : receiver.tree.RealDirectory current) (below : root <+: current)
    (makes :
      MakesParentOf receiver frames root (current ++ names) file) :
    AtomicReceive tree (receiver.enter root current names file) frames := by
  cases names with
  | cons name rest =>
      exact
        { toSettled := settled.sameTree rfl List.prefix_rfl List.suffix_rfl
          inPhase := ⟨real, below, makes⟩ }
  | nil =>
      rw [List.append_nil] at makes
      cases file with
      | some head =>
          exact
            { toSettled :=
                settled.sameTree rfl List.prefix_rfl List.suffix_rfl
              inPhase := ⟨real, makes.1, makes.2⟩ }
      | none =>
          obtain ⟨behind, rfl⟩ := below
          exact
            { toSettled :=
                settled.sameTree rfl List.prefix_rfl List.suffix_rfl
              inPhase := real.above }

theorem atomic_createSafeDirectory
    (settled : Settled tree receiver frames) {root : Location}
    (real : receiver.tree.RealDirectory root) {relative : String}
    {file : Option FileHead}
    (makes :
      MakesParentOf receiver frames root (root ++ pathSegments relative)
        file) :
    AtomicReceive tree (receiver.createSafeDirectory root relative file)
      frames := by
  rw [DirectoryReceiver.createSafeDirectory]
  split
  · exact settled.fail makes.kept _
  · rename_i accepted
    rw [normalNames_eq accepted]
    exact settled.enter real List.prefix_rfl makes

/-- The parent of a destination. -/
theorem childLocation_dropLast
    {relative : String}
    (accepted : validateRelativePath .unix relative = .ok ())
    (root : Location) :
    (childLocation root relative).dropLast =
      root ++ (pathSegments relative).dropLast := by
  rw [childLocation_split accepted, List.dropLast_concat]

theorem atomic_beginFile
    (settled : Settled tree receiver frames) {root : Location}
    (real : receiver.tree.RealDirectory root) {head : FileHead}
    {before : List FrameRead} {read : FrameRead}
    (isFrames : frames = before ++ [read]) (isRoot : read.root = root)
    (isFile : read.IsFile head receiver.input)
    (isTree : read.tree = receiver.tree) :
    AtomicReceive tree (receiver.beginFile root head) frames := by
  rw [DirectoryReceiver.beginFile]
  split
  · refine settled.fail ?_ _
    intro last isLast other behind _
    rw [isFrames, List.getLast?_concat] at isLast
    cases isLast
    rw [isTree]
  · rename_i accepted
    have reading : Reading receiver frames root head [] :=
      ⟨accepted, before, read, isFrames, isRoot, isFile, by rw [isTree]⟩
    have isParent := childLocation_dropLast accepted root
    by_cases flat : parentText head.relative = ""
    · rw [if_pos flat]
      refine settled.enter real List.prefix_rfl ⟨reading, ?_⟩
      rw [isParent, parentText_eq_empty accepted flat]
    · rw [if_neg flat]
      refine atomic_createSafeDirectory settled real ⟨reading, ?_⟩
      rw [isParent, pathSegments_parentText flat]

theorem atomic_readFrame
    (atomic : AtomicReceive tree receiver frames) {root : Location}
    (isFraming : receiver.phase = .framing root) :
    AtomicReceive tree (receiver.readFrame root)
      (frames ++
        [⟨root, readFrameHead receiver.input, receiver.tree⟩]) := by
  have real := atomic.inPhase
  rw [isFraming] at real
  change receiver.tree.RealDirectory root at real
  have noted {outcome : Except String (FrameHead × List UInt8)}
      (next : DirectoryReceiver) (isTree : next.tree = receiver.tree)
      (shorter : next.input <:+ receiver.input) :
      Settled tree next (frames ++ [⟨root, outcome, receiver.tree⟩]) :=
    atomic.sameTree isTree (List.prefix_append _ _) shorter
  have noFile {outcome : Except String (FrameHead × List UInt8)}
      (isOther :
        ∀ relative size flag behind,
          outcome ≠ .ok (.file relative size flag, behind)) :
      ∀ read,
        (frames ++ [(⟨root, outcome, receiver.tree⟩ : FrameRead)]).getLast? =
            some read →
          ∀ head behind, ¬read.IsFile head behind := by
    intro read isLast head behind isFile
    rw [List.getLast?_concat] at isLast
    cases isLast
    exact isOther _ _ _ _ isFile
  rw [DirectoryReceiver.readFrame]
  split
  · rename_i isHead
    rw [isHead]
    refine (noted receiver rfl List.suffix_rfl).fail ?_ _
    intro read isLast head behind isFile
    exact absurd isFile (noFile (by simp) read isLast head behind)
  · rename_i relative input isHead
    rw [isHead]
    refine
      atomic_createSafeDirectory
        (noted { receiver with input := input } rfl
          (readFrameHead_suffix isHead))
        real ?_
    exact noFile (by simp)
  · rename_i pack input isHead
    rw [isHead]
    exact
      { toSettled := noted _ rfl (readFrameHead_suffix isHead)
        inPhase := by
          change AtomicPhase _ _ receiver.phase
          rw [isFraming]
          exact real }
  · rename_i input isHead
    rw [isHead]
    exact
      { toSettled := noted _ rfl (readFrameHead_suffix isHead)
        inPhase := by
          change AtomicPhase _ _ receiver.phase
          rw [isFraming]
          exact real }
  · rename_i relative size flag input isHead
    rw [isHead]
    exact
      atomic_beginFile
        (noted
          { receiver with
            input := input
            named := receiver.named ++ [childLocation root relative] }
          rfl (readFrameHead_suffix isHead))
        real rfl rfl rfl rfl
  · rename_i files directories bytes input isHead
    rw [isHead]
    split
    · refine
        (noted { receiver with input := input } rfl
              (readFrameHead_suffix isHead)).fail
          ?_ _
      intro read isLast head behind isFile
      exact absurd isFile (noFile (by simp) read isLast head behind)
    · exact
        { toSettled := noted _ rfl (readFrameHead_suffix isHead)
          inPhase := trivial }

/-- A path above the parent of a file is not its destination. -/
theorem above_ne_childLocation
    {relative : String}
    (accepted : validateRelativePath .unix relative = .ok ())
    {root above : Location}
    (isAbove : above <+: (childLocation root relative).dropLast) :
    childLocation root relative ≠ above := by
  intro same
  have shorter := isAbove.length_le
  rw [← same, childLocation_split accepted, List.dropLast_concat,
    List.length_append, List.length_singleton] at shorter
  omega

theorem atomic_makeDirectory
    (atomic : AtomicReceive tree receiver frames)
    {root current : Location} {name : String} {rest : List String}
    {file : Option FileHead}
    (isMaking : receiver.phase = .making root current name rest file) :
    AtomicReceive tree
      (receiver.makeDirectory root current name rest file) frames := by
  have inPhase := atomic.inPhase
  rw [isMaking] at inPhase
  obtain ⟨real, below, makes⟩ := inPhase
  have failed (reason : String) :
      AtomicReceive tree (receiver.fail reason) frames :=
    atomic.fail makes.kept reason
  have behind : root <+: current ++ [name] :=
    below.trans (List.prefix_append _ _)
  have spelled : current ++ name :: rest = current ++ [name] ++ rest := by
    simp
  rw [spelled] at makes
  have looked := FileTree.symlinkMetadata_entry real name
  have made := FileTree.createDir_entry real name
  rw [DirectoryReceiver.makeDirectory, looked, made]
  cases node : receiver.tree (current ++ [name]) with
  | some found =>
      cases found with
      | symlink target => exact failed _
      | file content => exact failed _
      | directory => exact atomic.enter (real.entry node) behind makes
  | none =>
      have keeps :=
        @FileTree.keepsDirectories_put receiver.tree (current ++ [name])
          .directory (by rw [node]; simp)
      have stillMakes :
          MakesParentOf
            (receiver.act
              (receiver.tree.put (current ++ [name]) .directory)
              [current ++ [name]])
            frames root (current ++ [name] ++ rest) file := by
        cases file with
        | none => exact makes
        | some head =>
            obtain ⟨reading, isParent⟩ := makes
            refine ⟨reading.proceed rfl ?_, isParent⟩
            refine FileTree.put_other _ _ ?_
            refine above_ne_childLocation reading.1 ?_
            rw [← isParent]
            exact List.prefix_append _ _
      have settled :
          Settled tree
            (receiver.act
              (receiver.tree.put (current ++ [name]) .directory)
              [current ++ [name]])
            frames :=
        atomic.grow (FileTree.growsDirectories_put node) List.suffix_rfl
      exact
        settled.enter
          ((keeps.real real).entry (FileTree.put_same _ _ _)) behind
          stillMakes

theorem stagingPath_eq
    {head : FileHead}
    (accepted : validateRelativePath .unix head.relative = .ok ())
    (root : Location) :
    stagingPath root head =
      (childLocation root head.relative).dropLast ++
        [stagingName (lastName head.relative)] :=
  stagingLocation_eq accepted _

theorem atomic_createStaging
    (atomic : AtomicReceive tree receiver frames)
    {root parent : Location} {head : FileHead}
    (isPlacing : receiver.phase = .placing root parent head)
    (apart : stagingPath root head ≠ childLocation root head.relative)
    (lookupFails createFails : Bool) :
    AtomicReceive tree
      (receiver.createStaging root parent head lookupFails createFails)
      frames := by
  have inPhase := atomic.inPhase
  rw [isPlacing] at inPhase
  obtain ⟨real, reading, rfl⟩ := inPhase
  have failed (reason : String) :
      AtomicReceive tree (receiver.fail reason) frames :=
    atomic.fail reading.kept reason
  rw [DirectoryReceiver.createStaging.eq_def]
  split
  · exact failed _
  · split
    · exact failed _
    · split
      · exact failed _
      · rename_i location made created
        have isPath := stagingPath_eq reading.1 root
        change
          receiver.tree.createFile (stagingPath root head) =
            .ok (location, made) at created
        rw [isPath] at created
        obtain ⟨isLocation, notDirectory, isMade⟩ :=
          FileTree.createFile_entry real
            (fun target => atomic.linkFree _ target) created
        rw [← isPath] at isLocation notDirectory isMade
        subst isLocation isMade
        have keeps :=
          FileTree.keepsDirectories_put _ (.file []) notDirectory
        exact
          { toSettled :=
              atomic.stage reading.isStagingPath rfl List.suffix_rfl
            inPhase :=
              ⟨reading.proceed rfl (FileTree.put_other _ _ apart.symm),
                { isStaging := rfl
                  real := keeps.real real
                  isFile := FileTree.put_same _ _ _
                  apart := apart },
                rfl, Nat.zero_le _⟩ }

/-- Writing to the staging file changes its content and nothing else. -/
theorem StagingFile.append
    {root : Location} {head : FileHead} {staging : Location}
    {content : List UInt8}
    (isOpen : StagingFile receiver root head staging content)
    (bytes : List UInt8) :
    receiver.tree.appendFile staging bytes =
        receiver.tree.put staging (.file (content ++ bytes)) ∧
      ∀ {next : DirectoryReceiver},
        next.tree = receiver.tree.appendFile staging bytes →
          StagingFile next root head staging (content ++ bytes) := by
  have isPut := appendFile_eq isOpen.isFile bytes
  refine ⟨isPut, ?_⟩
  intro next isTree
  rw [isPut] at isTree
  have notDirectory : receiver.tree staging ≠ some .directory := by
    rw [isOpen.isFile]
    simp
  have keeps :=
    FileTree.keepsDirectories_put _ (.file (content ++ bytes))
      notDirectory
  exact
    { isStaging := isOpen.isStaging
      real := by
        rw [isTree]
        exact keeps.real isOpen.real
      isFile := by
        rw [isTree]
        exact FileTree.put_same _ _ _
      apart := isOpen.apart }

theorem StagingFile.same
    {root : Location} {head : FileHead} {staging : Location}
    {content : List UInt8}
    (isOpen : StagingFile receiver root head staging content)
    (isTree : next.tree = receiver.tree) :
    StagingFile next root head staging content where
  isStaging := isOpen.isStaging
  real := isTree ▸ isOpen.real
  isFile := isTree ▸ isOpen.isFile
  apart := isOpen.apart

theorem atomic_copyChunk
    (atomic : AtomicReceive tree receiver frames)
    {root : Location} {head : FileHead} {staging opened : Location}
    {copied : List UInt8}
    (isCopying :
      receiver.phase = .copying root head staging opened copied)
    (unfinished : copied.length < head.size) (limit : Nat)
    (written : Option Nat) :
    AtomicReceive tree
      (receiver.copyChunk root head staging opened copied limit written)
      frames := by
  have inPhase := atomic.inPhase
  rw [isCopying] at inPhase
  obtain ⟨reading, isOpen, rfl, _⟩ := inPhase
  have isStaging : IsStagingPath frames opened := by
    rw [isOpen.isStaging]
    exact reading.isStagingPath
  have destination (bytes : List UInt8) :
      receiver.tree.appendFile opened bytes
          (childLocation root head.relative) =
        receiver.tree (childLocation root head.relative) := by
    rw [(isOpen.append bytes).1]
    exact FileTree.put_other _ _ isOpen.apart.symm
  simp only [DirectoryReceiver.copyChunk]
  generalize isLimit :
    max 1 (min limit (min (head.size - copied.length) fileChunkSize)) =
      count
  have isSplit := List.take_append_drop count receiver.input
  have short : (receiver.input.take count).length ≤ count :=
    List.length_take_le _ _
  have isRest :
      receiver.input.drop (receiver.input.take count).length =
        receiver.input.drop count := by
    rw [List.length_take]
    by_cases enough : count ≤ receiver.input.length
    · rw [Nat.min_eq_left enough]
    · rw [Nat.min_eq_right (by omega), List.drop_length,
        List.drop_eq_nil_of_le (by omega)]
  split
  · exact atomic.fail reading.kept _
  · cases written with
    | some most =>
        have settled :
            Settled tree
              (receiver.act
                (receiver.tree.appendFile opened
                  ((receiver.input.take count).take most))
                [opened])
              frames :=
          atomic.stage isStaging (isOpen.append _).1 List.suffix_rfl
        refine settled.fail ?_ _
        have still :=
          @Reading.proceed receiver
            (receiver.act
              (receiver.tree.appendFile opened
                ((receiver.input.take count).take most))
              [opened])
            frames root head copied [] reading rfl (destination _)
        exact still.kept
    | none =>
        refine
          { toSettled :=
              atomic.stage isStaging (isOpen.append _).1
                (List.drop_suffix _ _)
            inPhase :=
              ⟨reading.proceed ?_ (destination _), (isOpen.append _).2 rfl,
                rfl, ?_⟩ }
        · rw [isRest]
          exact isSplit.symm
        · rw [List.length_append]
          omega

theorem atomic_finishContent
    (atomic : AtomicReceive tree receiver frames)
    {root : Location} {head : FileHead} {staging opened : Location}
    {copied : List UInt8}
    (isCopying :
      receiver.phase = .copying root head staging opened copied)
    (finished : ¬copied.length < head.size)
    (flushFails removeFails : Bool) :
    AtomicReceive tree
      (receiver.finishContent root head staging copied flushFails
        removeFails)
      frames := by
  have inPhase := atomic.inPhase
  rw [isCopying] at inPhase
  obtain ⟨reading, isOpen, rfl, notLonger⟩ := inPhase
  have whole : copied.length = head.size := by omega
  rw [DirectoryReceiver.finishContent]
  split
  · exact atomic.fail reading.kept _
  · split
    · rename_i unflagged
      have still :=
        @Reading.proceed receiver
          { receiver with phase := .renaming root head opened } frames root
          head copied [] reading rfl rfl
      exact
        { toSettled := atomic.sameTree rfl List.prefix_rfl List.suffix_rfl
          inPhase :=
            ⟨copied, [], still, isOpen.same rfl, whole,
              (if_pos unflagged).symm⟩ }
    · rename_i flagged
      split
      · exact atomic.fail reading.kept _
      · rename_i expected input isDigest
        have isSplit := (readExact_split isDigest).1
        have shorter := readExact_suffix isDigest
        split
        · rename_i matched
          exact
            { toSettled := atomic.sameTree rfl List.prefix_rfl shorter
              inPhase :=
                ⟨copied, expected, reading.proceed isSplit rfl,
                  isOpen.same rfl, whole,
                  by rw [if_neg flagged, matched]⟩ }
        · -- the mismatch: what `remove_file` leaves is a staging path
          have noted :
              Settled tree { receiver with input := input } frames :=
            atomic.sameTree rfl List.prefix_rfl shorter
          have readingOn :=
            @Reading.proceed receiver { receiver with input := input }
              frames root head copied expected reading isSplit rfl
          rw [DirectoryReceiver.discard.eq_def]
          split
          · rename_i location next removed
            change receiver.tree.removeFile opened = _ at removed
            have isPath := stagingPath_eq reading.1 root
            rw [isOpen.isStaging, isPath] at removed
            obtain ⟨_, _, isNext⟩ :=
              FileTree.removeFile_entry isOpen.real removed
            rw [← isPath, ← isOpen.isStaging] at isNext
            subst isNext
            have isStaging : IsStagingPath frames opened := by
              rw [isOpen.isStaging]
              exact reading.isStagingPath
            have settled :
                Settled tree
                  (DirectoryReceiver.act { receiver with input := input }
                    (receiver.tree.erase opened) [location])
                  frames :=
              noted.unstage isStaging rfl List.suffix_rfl
            refine settled.fail ?_ _
            have still :=
              @Reading.proceed { receiver with input := input }
                (DirectoryReceiver.act { receiver with input := input }
                  (receiver.tree.erase opened) [location])
                frames root head _ [] readingOn rfl
                (FileTree.erase_other _ isOpen.apart.symm)
            exact still.kept
          · exact noted.fail readingOn.kept _

/-- The staging file becomes the destination. -/
theorem atomic_renameStaging
    (atomic : AtomicReceive tree receiver frames)
    {root : Location} {head : FileHead} {staging : Location}
    (isRenaming : receiver.phase = .renaming root head staging)
    (fails : Bool) :
    AtomicReceive tree (receiver.renameStaging root head staging fails)
      frames := by
  have inPhase := atomic.inPhase
  rw [isRenaming] at inPhase
  obtain ⟨content, digest, reading, isOpen, whole, isDigest⟩ := inPhase
  rw [DirectoryReceiver.renameStaging.eq_def]
  split
  · rename_i source target next renamed
    have isPath := stagingPath_eq reading.1 root
    have isParent := childLocation_dropLast reading.1 root
    have isChild :
        childLocation root head.relative =
          (childLocation root head.relative).dropLast ++
            [lastName head.relative] := by
      rw [isParent, ← childLocation_split reading.1]
    have isFile := isOpen.isFile
    have apart := isOpen.apart
    rw [isOpen.isStaging, isPath] at renamed isFile apart
    rw [isChild, List.dropLast_concat] at renamed apart
    obtain ⟨_, _, notDirectory, isNext⟩ :=
      FileTree.rename_entry isOpen.real isFile renamed
    obtain ⟨links, keeps, isPlaced⟩ :=
      renamed_tree isFile notDirectory isNext
    have different :
        stagingName (lastName head.relative) ≠ lastName head.relative := by
      intro same
      rw [same] at apart
      exact apart rfl
    rw [if_neg different] at isNext
    rw [← isChild] at isNext isPlaced
    refine
      { toSettled := ?_
        inPhase := ?_ }
    · refine
        atomic.change
          (fun location link isLink =>
            atomic.linkFree location link (links location link isLink))
          List.prefix_rfl List.suffix_rfl ?_
      intro path notStaging
      by_cases isDestination : path = childLocation root head.relative
      · -- the staging file holds what the frame announced
        subst isDestination
        refine .inr (.inr ⟨content, isPlaced, ?_⟩)
        obtain ⟨_, earlier, read, rfl, rfl, isRead, _⟩ := reading
        exact
          ⟨read, List.mem_append_right _ List.mem_cons_self, head, digest,
            receiver.input, isRead, rfl, whole, isDigest, List.suffix_rfl⟩
      · have notSource : path ≠ stagingPath root head := by
          rintro rfl
          exact notStaging reading.isStagingPath
        rw [isPath] at notSource
        refine .inl ?_
        change next path = receiver.tree path
        rw [isNext, FileTree.erase_other _ notSource,
          FileTree.put_other _ _ isDestination]
    · have real := keeps.real isOpen.real
      rw [isParent] at real
      exact real.above
  · exact atomic.fail reading.kept _

/-- The stream was aborted where it is read. -/
theorem atomic_aborted
    (atomic : AtomicReceive tree receiver frames)
    (reads : receiver.reads = true) (abort : StreamAbort) :
    AtomicReceive tree (receiver.fail abort.text)
      (noteFrame receiver (.aborted abort) next frames) := by
  have inPhase := atomic.inPhase
  cases isPhase : receiver.phase with
  | opening =>
      rw [isPhase] at inPhase
      change frames = [] at inPhase
      subst inPhase
      simp only [noteFrame, isPhase]
      exact atomic.fail (destinationKept_nil _) _
  | framing root =>
      simp only [noteFrame, isPhase]
      refine
        Settled.fail
          (atomic.sameTree rfl (List.prefix_append _ _) List.suffix_rfl) ?_ _
      intro read isLast head behind isFile
      rw [List.getLast?_concat] at isLast
      cases isLast
      cases isFile
  | copying root head staging opened copied =>
      rw [isPhase] at inPhase
      simp only [noteFrame, isPhase]
      exact atomic.fail inPhase.1.kept _
  | _ => simp [DirectoryReceiver.reads, isPhase] at reads

/-- Every admitted step keeps the invariant. -/
theorem atomic_step
    (atomic : AtomicReceive tree receiver frames)
    {label : DirectoryReceiveLabel} (admitted : PhaseApart receiver.phase)
    (stepped : directoryReceiveStep base receiver label = some next) :
    AtomicReceive tree next (noteFrame receiver label next frames) := by
  rw [directoryReceiveStep.eq_def] at stepped
  split at stepped
  · rename_i isPhase
    cases stepped
    simp only [noteFrame, isPhase]
    exact atomic_openStream atomic isPhase
  · rename_i isPhase
    cases stepped
    simp only [noteFrame, isPhase]
    exact atomic_createRoot atomic isPhase _ _
  · rename_i isPhase
    cases stepped
    simp only [noteFrame, isPhase]
    exact atomic_readFrame atomic isPhase
  · rename_i isPhase
    have inPhase := atomic.inPhase
    rw [isPhase] at inPhase
    simp only [noteFrame, isPhase]
    split at stepped
    · cases stepped
      exact atomic.fail inPhase.2.2.kept _
    · cases stepped
      exact atomic_makeDirectory atomic isPhase
  · rename_i isPhase
    cases stepped
    simp only [noteFrame, isPhase]
    rw [isPhase] at admitted
    exact atomic_createStaging atomic isPhase admitted _ _
  · rename_i isPhase
    simp only [noteFrame, isPhase]
    split at stepped
    · rename_i unfinished
      cases stepped
      exact atomic_copyChunk atomic isPhase unfinished _ _
    · cases stepped
  · rename_i isPhase
    simp only [noteFrame, isPhase]
    split at stepped
    · cases stepped
    · rename_i finished
      cases stepped
      exact atomic_finishContent atomic isPhase finished _ _
  · rename_i isPhase
    cases stepped
    simp only [noteFrame, isPhase]
    exact atomic_renameStaging atomic isPhase _
  · split at stepped
    · rename_i reads
      cases stepped
      exact atomic_aborted atomic reads _
    · cases stepped
  · cases stepped

end Steps

theorem atomic_start
    {tree : FileTree} (linkFree : tree.LinkFree) (stream : List UInt8) :
    AtomicReceive tree (.start tree stream) [] where
  linkFree := linkFree
  settled := fun _ _ => .inl rfl
  inPhase := rfl

/-- In a tree without symbolic links, in which no staging path is a
destination, a path never holds a part of a file. -/
theorem directory_receive_replaces_whole_files
    (base : Location) (tree : FileTree) (linkFree : tree.LinkFree)
    (stream : List UInt8) (labels : List DirectoryReceiveLabel)
    (receiver : DirectoryReceiver) (frames : List FrameRead)
    (run :
      Run (atomicStep base) StagingApart (.start tree stream, []) labels
        (receiver, frames)) :
    ReplacesWholeFiles tree receiver frames := by
  have atomic :=
    run.preserves
      (fun watched => AtomicReceive tree watched.1 watched.2)
      (fun source label target atomic admitted stepped => by
        obtain ⟨stepped, noted⟩ := withHistory_eq_some.mp stepped
        rw [noted]
        exact atomic_step atomic admitted stepped)
      (atomic_start linkFree stream)
  exact atomic.replacesWholeFiles

theorem directory_receive_replaces_one_file :
    ∃ watched,
      Run (atomicStep ["home"]) StagingApart
          (.start emptyHome oneFileStream, []) oneFileLabels watched ∧
        watched.1.phase = .done ∧
          watched.1.tree ["home", "d", "a"] = some (.file [7]) ∧
            ReplacesWholeFiles emptyHome watched.1 watched.2 := by
  have ran :
      (guardedReplay (atomicStep ["home"]) StagingApart
          (.start emptyHome oneFileStream, []) oneFileLabels).map
          (fun watched =>
            (watched.1.phase, watched.1.tree ["home", "d", "a"])) =
        some (.done, some (.file [7])) := by
    decide +kernel
  obtain ⟨watched, reached, same⟩ := Option.map_eq_some_iff.mp ran
  injection same with finished isFile
  have run := run_of_guardedReplay reached
  have linkFree : emptyHome.LinkFree := by
    intro location target isLink
    rw [emptyHome] at isLink
    split at isLink <;> cases isLink
  exact
    ⟨watched, run, finished, isFile,
      directory_receive_replaces_whole_files ["home"] emptyHome linkFree
        oneFileStream oneFileLabels watched.1 watched.2 run⟩

/-! ## The staging name that is its own -/

def selfStagingName : String :=
  String.ofList (List.replicate (240 + 1) '.' ++ ".quic-part".toList)

theorem takeBytes_dots
    {limit count : Nat} (inside : count ≤ limit) (rest : List Char) :
    takeBytes limit (List.replicate count '.' ++ rest) =
      List.replicate count '.' ++ takeBytes (limit - count) rest := by
  induction count generalizing limit with
  | zero => rfl
  | succ count inductionHypothesis =>
      have fits : ('.' : Char).utf8Size ≤ limit :=
        le_trans (by decide : ('.' : Char).utf8Size ≤ 1) (by omega)
      have one : ('.' : Char).utf8Size = 1 := by decide
      rw [List.replicate_succ, List.cons_append, takeBytes, if_pos fits, one,
        inductionHypothesis (by omega), List.cons_append,
        show limit - 1 - count = limit - (count + 1) by omega]

theorem dots_concat (count : Nat) :
    List.replicate (count + 1) '.' = List.replicate count '.' ++ ['.'] :=
  List.replicate_succ'

theorem takeBytes_zero (characters : List Char) :
    takeBytes 0 characters = [] := by
  cases characters with
  | nil => rfl
  | cons first rest =>
      rw [takeBytes, if_neg]
      have positive := first.utf8Size_pos
      omega

theorem takeBytes_all_dots (limit : Nat) (rest : List Char) :
    takeBytes limit (List.replicate (limit + 1) '.' ++ rest) =
      List.replicate limit '.' := by
  rw [dots_concat, List.append_assoc, takeBytes_dots (le_refl limit),
    Nat.sub_self, takeBytes_zero, List.append_nil]

/-- What begins with a dot and then with itself begins with dots. -/
theorem eq_cons_takeBytes_iff
    (limit : Nat) (characters suffix : List Char) :
    '.' :: (takeBytes limit characters ++ suffix) = characters ↔
      characters = List.replicate (limit + 1) '.' ++ suffix := by
  constructor
  · intro spelled
    -- a dot in front of the dots that are there already
    have dots (count : Nat) (inside : count ≤ limit + 1) :
        ∃ rest, characters = List.replicate count '.' ++ rest := by
      induction count with
      | zero => exact ⟨characters, rfl⟩
      | succ count inductionHypothesis =>
          obtain ⟨rest, isRest⟩ := inductionHypothesis (by omega)
          refine ⟨takeBytes (limit - count) rest ++ suffix, ?_⟩
          rw [isRest, takeBytes_dots (by omega)] at spelled
          rw [isRest, ← spelled, List.replicate_succ, List.append_assoc]
          rfl
    obtain ⟨rest, isRest⟩ := dots (limit + 1) (le_refl _)
    rw [isRest, takeBytes_all_dots] at spelled
    rw [isRest, ← spelled, List.replicate_succ]
    rfl
  · rintro rfl
    rw [takeBytes_all_dots, List.replicate_succ]
    rfl

theorem toList_selfStagingName :
    selfStagingName.toList =
      List.replicate (240 + 1) '.' ++ ".quic-part".toList :=
  String.toList_ofList

theorem toList_stagingName (name : String) :
    (stagingName name).toList =
      '.' :: (takeBytes 240 name.toList ++ ".quic-part".toList) :=
  String.toList_ofList

/-- There is one name whose staging name is itself. -/
theorem stagingName_eq_self_iff (name : String) :
    stagingName name = name ↔ name = selfStagingName := by
  have fixed := eq_cons_takeBytes_iff 240 name.toList ".quic-part".toList
  constructor
  · intro same
    have spelled := (toList_stagingName name).symm.trans (congrArg _ same)
    exact
      String.toList_injective
        ((fixed.mp spelled).trans toList_selfStagingName.symm)
  · intro same
    have spelled := (congrArg _ same).trans toList_selfStagingName
    exact
      String.toList_injective
        ((toList_stagingName name).trans (fixed.mpr spelled))

/-- The staging path of a file is its destination for this name only. -/
theorem stagingPath_eq_childLocation_iff
    {head : FileHead}
    (accepted : validateRelativePath .unix head.relative = .ok ())
    (root : Location) :
    stagingPath root head = childLocation root head.relative ↔
      lastName head.relative = selfStagingName := by
  rw [stagingPath_eq accepted, childLocation_dropLast accepted,
    childLocation_split accepted, List.append_cancel_left_eq,
    List.cons.injEq, and_iff_left rfl, stagingName_eq_self_iff]

section SelfStaging

/-- A directory of one empty file, with this digest. -/
def digestStream (name : String) (digest : List UInt8) : List UInt8 :=
  encodeStart "d" ++ (encodeFileHead name 0 1 ++ digest)

def digestLabels : List DirectoryReceiveLabel :=
  [.openStream, .createRoot (fun _ => false) false, .readFrame,
    .createStaging false false, .finishContent false false]

/-- The directory `home/d` with one file. -/
def homeWith (name : String) (content : List UInt8) : FileTree :=
  fun location =>
    if location = ["home"] then some .directory
    else if location = ["home", "d"] then some .directory
    else if location = ["home", "d", name] then some (.file content)
    else none

variable {name : String} {content digest : List UInt8}

theorem homeWith_linkFree : (homeWith name content).LinkFree := by
  intro location target isLink
  rw [homeWith] at isLink
  split_ifs at isLink <;> cases isLink

theorem homeWith_real :
    (homeWith name content).RealDirectory ["home", "d"] := by
  intro count inside
  have cases : count = 0 ∨ count = 1 := by
    have isLength : (["home", "d"] : Location).length = 2 := rfl
    omega
  rcases cases with rfl | rfl
  · rfl
  · rfl

theorem homeWith_file :
    homeWith name content ["home", "d", name] = some (.file content) := by
  simp [homeWith]

theorem home_resolve
    {tree : FileTree} (real : tree.RealDirectory ["home", "d"])
    (linkFree : tree.LinkFree) (followLast : Bool) :
    tree.resolve followLast ["home", "d", name] =
      .ok ["home", "d", name] :=
  FileTree.resolve_entry real followLast fun _ => linkFree _

theorem homeWith_createFile :
    (homeWith name content).createFile ["home", "d", name] =
      .ok
        (["home", "d", name],
          (homeWith name content).put ["home", "d", name] (.file [])) := by
  rw [FileTree.createFile, home_resolve homeWith_real homeWith_linkFree]
  simp only [homeWith_file]

theorem homeWith_symlinkMetadata :
    (homeWith name content).symlinkMetadata ["home", "d", name] =
      .ok (.file content) := by
  rw [FileTree.symlinkMetadata,
    home_resolve homeWith_real homeWith_linkFree]
  simp only [homeWith_file]

theorem homeWith_removeFile :
    ((homeWith name content).put ["home", "d", name]
          (.file [])).removeFile ["home", "d", name] =
      .ok
        (["home", "d", name],
          ((homeWith name content).put ["home", "d", name]
              (.file [])).erase ["home", "d", name]) := by
  rw [FileTree.removeFile, home_resolve]
  · simp
  · refine (FileTree.keepsDirectories_put _ _ ?_).real homeWith_real
    rw [homeWith_file]
    simp
  · exact homeWith_linkFree.put _ _ (by simp)

/-- What happens to a file whose name is its own staging name. -/
theorem self_staging_run
    (accepted : validateRelativePath .unix name = .ok ())
    (isNormal : IsNormalName name) (self : stagingName name = name)
    (long : digest.length = 32) (mismatch : sha256 [] ≠ digest) :
    ∃ receiver read,
      replay (atomicStep ["home"])
          (.start (homeWith name content) (digestStream name digest), [])
          digestLabels =
        some (receiver, [read]) ∧
        receiver.phase = .failed (checksumMismatch name) ∧
          receiver.tree ["home", "d", name] = none ∧
            read.root = ["home", "d"] ∧
              read.IsFile ⟨name, 0, 1⟩ digest ∧
                read.tree ["home", "d", name] = some (.file content) := by
  obtain ⟨rootAccepted, rootSingle, isRoot⟩ :
      validateRelativePath .unix "d" = .ok () ∧
        (Platform.unix.parse "d").componentCount = 1 ∧
          childLocation ["home"] "d" = ["home", "d"] := by
    decide +kernel
  have single := pathSegments_name isNormal
  have startRead :=
    readStart_encodeStart rootAccepted rootSingle
      (encodeFileHead name 0 1 ++ digest)
  have headRead :=
    readFrameHead_encodeFileHead accepted (by decide : 0 < 2 ^ 64) 1
      digest
  have noParent : parentText name = "" := by
    rw [parentText, segments_name isNormal]
    rfl
  have isDestination :
      childLocation ["home", "d"] name = ["home", "d", name] := by
    rw [childLocation_eq accepted, single]
    rfl
  have isStaging :
      stagingLocation ["home", "d"] ⟨name, 0, 1⟩ =
        ["home", "d", name] := by
    rw [stagingLocation_eq accepted, lastName, single]
    exact congrArg (fun last => ["home", "d", last]) self
  -- the receiver behind each step
  let body := encodeFileHead name 0 1 ++ digest
  let home := homeWith name content
  let path : Location := ["home", "d", name]
  let stats := DirectoryTransferStats.start
  have opened :
      directoryReceiveStep ["home"] (.start home (digestStream name digest))
          .openStream =
        some ⟨body, home, stats, .creatingRoot ["home", "d"], [], []⟩ := by
    simp only [directoryReceiveStep, DirectoryReceiver.start,
      DirectoryReceiver.openStream, digestStream, startRead, rootAccepted,
      isRoot]
    rfl
  have rooted :
      directoryReceiveStep ["home"]
          ⟨body, home, stats, .creatingRoot ["home", "d"], [], []⟩
          (.createRoot (fun _ => false) false) =
        some ⟨body, home, stats, .framing ["home", "d"], [], []⟩ := by
    rfl
  have framed :
      directoryReceiveStep ["home"]
          ⟨body, home, stats, .framing ["home", "d"], [], []⟩
          .readFrame =
        some
          ⟨digest, home, stats,
            .placing ["home", "d"] ["home", "d"] ⟨name, 0, 1⟩, [],
            [path]⟩ := by
    simp only [directoryReceiveStep, DirectoryReceiver.readFrame, body,
      headRead, DirectoryReceiver.beginFile, accepted, noParent, if_pos,
      isDestination]
    rfl
  have staged :
      directoryReceiveStep ["home"]
          ⟨digest, home, stats,
            .placing ["home", "d"] ["home", "d"] ⟨name, 0, 1⟩, [], [path]⟩
          (.createStaging false false) =
        some
          ⟨digest, home.put path (.file []), stats,
            .copying ["home", "d"] ⟨name, 0, 1⟩ path path [], [path],
            [path]⟩ := by
    simp only [directoryReceiveStep, DirectoryReceiver.createStaging,
      isDestination, isStaging, home, homeWith_symlinkMetadata,
      homeWith_createFile]
    rfl
  have discarded :
      directoryReceiveStep ["home"]
          ⟨digest, home.put path (.file []), stats,
            .copying ["home", "d"] ⟨name, 0, 1⟩ path path [], [path],
            [path]⟩
          (.finishContent false false) =
        some
          ⟨[], (home.put path (.file [])).erase path, stats,
            .failed (checksumMismatch name), [path, path],
            [path]⟩ := by
    have digestRead :
        readExact 32 digest = .ok (digest, []) := by
      have read := readExact_append long []
      rwa [List.append_nil] at read
    simp [directoryReceiveStep, DirectoryReceiver.finishContent, digestRead,
      mismatch, DirectoryReceiver.discard, home, path,
      homeWith_removeFile,
      DirectoryReceiver.act, DirectoryReceiver.fail]
  have started :=
    @withHistory_eq_some _ _ _ (directoryReceiveStep ["home"]) noteFrame
  refine
    ⟨⟨[], (home.put path (.file [])).erase path, stats,
        .failed (checksumMismatch name), [path, path],
        [path]⟩,
      ⟨["home", "d"], readFrameHead body, home⟩, ?_, rfl,
      FileTree.erase_same _ _, rfl, headRead, homeWith_file⟩
  refine replay_cons_eq_some.mpr ⟨(_, []), started.mpr ⟨opened, rfl⟩, ?_⟩
  refine replay_cons_eq_some.mpr ⟨(_, []), started.mpr ⟨rooted, rfl⟩, ?_⟩
  refine replay_cons_eq_some.mpr ⟨(_, _), started.mpr ⟨framed, rfl⟩, ?_⟩
  refine replay_cons_eq_some.mpr ⟨(_, _), started.mpr ⟨staged, rfl⟩, ?_⟩
  refine replay_cons_eq_some.mpr ⟨(_, _), started.mpr ⟨discarded, rfl⟩, ?_⟩
  rfl

end SelfStaging

theorem selfStagingName_normal : IsNormalName selfStagingName := by
  have different {text : String}
      (short : text.toList.length < 251) : selfStagingName ≠ text := by
    rintro rfl
    rw [toList_selfStagingName, List.length_append,
      List.length_replicate] at short
    exact absurd short (by decide)
  refine
    ⟨different (by decide), different (by decide), different (by decide), ?_⟩
  intro inside
  rw [toList_selfStagingName, List.mem_append] at inside
  rcases inside with isDot | inSuffix
  · exact absurd (List.eq_of_mem_replicate isDot) (by decide)
  · exact absurd inSuffix (by decide)

theorem selfStagingName_accepted :
    validateRelativePath .unix selfStagingName = .ok () := by
  have plain :
      ∀ character ∈ selfStagingName.toList,
        character ≠ '\\' ∧ isControl character = false := by
    intro character inside
    rw [toList_selfStagingName, List.mem_append] at inside
    rcases inside with isDot | inSuffix
    · rw [List.eq_of_mem_replicate isDot]
      decide
    · have suffixPlain :
          (".quic-part".toList.all fun character =>
            character != '\\' && !isControl character) = true := by
        decide
      have isPlain := List.all_eq_true.mp suffixPlain character inSuffix
      simpa using isPlain
  have isFirst : selfStagingName.toList.head? = some '.' := by
    rw [toList_selfStagingName, List.replicate_succ]
    rfl
  refine accepts_name selfStagingName_normal plain ?_ ?_ ?_
  · rw [isFirst]
    decide
  · rw [isFirst]
    decide
  · have short :=
      utf8ByteSize_ofList_le
        (List.replicate (240 + 1) '.' ++ ".quic-part".toList)
    rw [List.length_append, List.length_replicate] at short
    exact short.trans (by decide)

/-- The previous file of that name is gone after a checksum mismatch. -/
theorem self_staging_file_lost :
    ∃ watched,
      Run (atomicStep ["home"]) anyStep
          (.start (homeWith selfStagingName [1, 2])
              (digestStream selfStagingName (List.replicate 32 0)),
            [])
          digestLabels watched ∧
        (homeWith selfStagingName [1, 2]).LinkFree ∧
          watched.1.phase =
              .failed (checksumMismatch selfStagingName) ∧
            watched.1.tree ["home", "d", selfStagingName] = none ∧
              ¬ReplacesWholeFiles (homeWith selfStagingName [1, 2])
                  watched.1 watched.2 := by
  have mismatch : sha256 [] ≠ List.replicate 32 0 := by decide +kernel
  obtain ⟨receiver, read, ran, failed, isNone, isRoot, isFile, before⟩ :=
    @self_staging_run selfStagingName [1, 2] (List.replicate 32 0)
      selfStagingName_accepted selfStagingName_normal
      ((stagingName_eq_self_iff _).mpr rfl) (by simp) mismatch
  refine
    ⟨(receiver, [read]), run_of_replay ran, homeWith_linkFree, failed,
      isNone, ?_⟩
  intro replaces
  have kept := replaces.failed _ failed read rfl _ _ isFile
  have isDestination :
      childLocation read.root selfStagingName =
        ["home", "d", selfStagingName] := by
    rw [isRoot, childLocation_eq selfStagingName_accepted,
      pathSegments_name selfStagingName_normal]
    rfl
  rw [isDestination, isNone, before] at kept
  cases kept

end Quiczilla
