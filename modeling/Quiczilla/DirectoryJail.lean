import Quiczilla.DirectoryReceive
import Quiczilla.Foundation.Runs

/-!
# The directory receiver and symbolic links

Every directory of a received path is tested before it is entered, and so is
the destination of a file; only the staging name is not.  In a run that never
opens a staging name at which there is a symbolic link, every operation acts
below the root of the transfer.
-/

namespace Quiczilla

open Foundation

/-! ## The paths of a frame -/

theorem childLocation_eq
    {relative : String}
    (accepted : validateRelativePath .unix relative = .ok ())
    (root : Location) :
    childLocation root relative = root ++ pathSegments relative := by
  rw [childLocation, normalNames_eq accepted]

theorem pathSegments_ne_nil (relative : String) :
    pathSegments relative ≠ [] := by
  intro isNil
  exact segments_ne_nil relative.toList (List.map_eq_nil_iff.mp isNil)

/-- The names of the directories above the file. -/
theorem pathSegments_parentText
    {relative : String} (nested : parentText relative ≠ "") :
    pathSegments (parentText relative) = (pathSegments relative).dropLast := by
  have notNil : (segments relative.toList).dropLast ≠ [] := by
    intro isNil
    rw [parentText, isNil] at nested
    exact nested rfl
  have separated :
      ∀ piece ∈ (segments relative.toList).dropLast, '/' ∉ piece := by
    intro piece member
    exact separator_notMem_segment (List.dropLast_subset _ member)
  rw [pathSegments, parentText, String.toList_ofList,
    segments_joinSegments notNil separated, pathSegments, List.map_dropLast]

theorem parentText_eq_empty
    {relative : String}
    (accepted : validateRelativePath .unix relative = .ok ())
    (flat : parentText relative = "") :
    (pathSegments relative).dropLast = [] := by
  obtain ⟨passes, _, _⟩ := validateRelativePath_spec accepted
  have isNil : joinSegments (segments relative.toList).dropLast = [] := by
    have back := congrArg String.toList flat
    rw [parentText, String.toList_ofList] at back
    exact back
  have noPieces : (segments relative.toList).dropLast = [] := by
    cases pieces : (segments relative.toList).dropLast with
    | nil => rfl
    | cons first rest =>
        have isSegment : first ∈ segments relative.toList := by
          apply List.dropLast_subset
          rw [pieces]
          exact List.mem_cons_self
        have notEmpty := (passes.normal first isSegment).1
        rw [pieces] at isNil
        cases rest with
        | nil => exact absurd isNil notEmpty
        | cons second later =>
            rw [joinSegments] at isNil
            · exact absurd (List.append_eq_nil_iff.mp isNil).1 notEmpty
            · simp
  rw [pathSegments, ← List.map_dropLast, noPieces]
  rfl

/-- The last name of an accepted path. -/
def lastName (relative : String) : String :=
  ((pathSegments relative).getLast?).getD ""

theorem pathSegments_eq (relative : String) :
    pathSegments relative =
      (pathSegments relative).dropLast ++ [lastName relative] := by
  have notNil := pathSegments_ne_nil relative
  rw [lastName, List.getLast?_eq_some_getLast notNil, Option.getD_some,
    List.dropLast_concat_getLast]

theorem stagingLocation_eq
    {head : FileHead}
    (accepted : validateRelativePath .unix head.relative = .ok ())
    (parent : Location) :
    stagingLocation parent head =
      parent ++ [stagingName (lastName head.relative)] := by
  rw [stagingLocation, normalNames_eq accepted, lastName]

theorem childLocation_split
    {relative : String}
    (accepted : validateRelativePath .unix relative = .ok ())
    (root : Location) :
    childLocation root relative =
      root ++ (pathSegments relative).dropLast ++ [lastName relative] := by
  rw [childLocation_eq accepted, List.append_assoc, ← pathSegments_eq]

/-- The START frame names the root by one component. -/
theorem readStart_single
    {input rest : List UInt8} {rootName : String}
    (isRoot : readStart input = .ok (rootName, rest)) :
    (Platform.unix.parse rootName).componentCount = 1 := by
  cases input with
  | nil => cases isRoot
  | cons tag behind =>
      rw [readStart] at isRoot
      split at isRoot
      · cases read : readPath behind with
        | error reason =>
            rw [read] at isRoot
            cases isRoot
        | ok result =>
            rw [read] at isRoot
            simp only [bind, Except.bind] at isRoot
            split at isRoot
            · cases isRoot
            · rename_i single
              cases isRoot
              simpa using single
      · cases isRoot

theorem rootLocation_eq
    {input rest : List UInt8} {rootName : String}
    (isRoot : readStart input = .ok (rootName, rest))
    (accepted : validateRelativePath .unix rootName = .ok ())
    (base : Location) :
    childLocation base rootName = base ++ [rootName] := by
  obtain ⟨passes, noDrive, _⟩ := validateRelativePath_spec accepted
  have single := readStart_single isRoot
  rw [Platform.parse_of_no_drive passes.noBackslash noDrive,
    PlatformPath.componentCount, passes.components_eq] at single
  have one : (segments rootName.toList).length = 1 := by
    simpa [pathSegments] using single
  obtain ⟨segment, isSegment⟩ := List.length_eq_one_iff.mp one
  have whole := joinSegments_segments rootName.toList
  rw [isSegment] at whole
  have isName : pathSegments rootName = [rootName] := by
    rw [pathSegments, isSegment, List.map_singleton]
    change [String.ofList (joinSegments [segment])] = _
    rw [whole, String.ofList_toList]
  rw [childLocation_eq accepted, isName]

/-! ## The jail -/

/-- No location of the list is a symbolic link. -/
def NotLinked (tree : FileTree) (locations : List Location) : Prop :=
  ∀ location ∈ locations, ∀ target,
    tree location ≠ some (.symlink target)

/-- Every link of the later tree is one of the earlier tree. -/
def NoNewLinks (tree next : FileTree) : Prop :=
  ∀ location target, next location = some (.symlink target) →
    tree location = some (.symlink target)

/-- The root that the stream names. -/
def RootOf (base : Location) (stream : List UInt8) (root : Location) :
    Prop :=
  ∃ rootName rest, readStart stream = .ok (rootName, rest) ∧
    root = base ++ [rootName]

/-- Every operation acted below the root, the call made no symbolic link, and
no path of a file frame is one, unless it is the last path. -/
structure Confined
    (base : Location) (stream : List UInt8) (tree : FileTree)
    (receiver : DirectoryReceiver) : Prop where
  inside :
    ∀ location ∈ receiver.touched,
      ∃ root, RootOf base stream root ∧ root <+: location
  links : NoNewLinks tree receiver.tree
  earlier : NotLinked receiver.tree receiver.named.dropLast

/-- A call that ends without an error leaves no link at the last path
either. -/
structure StaysInJail
    (base : Location) (stream : List UInt8) (tree : FileTree)
    (receiver : DirectoryReceiver) : Prop
    extends Confined base stream tree receiver where
  completed :
    receiver.phase = .done → NotLinked receiver.tree receiver.named

/-- When `File::create` is called, there is no symbolic link at the staging
name. -/
def StagingNotLink
    (receiver : DirectoryReceiver) (label : DirectoryReceiveLabel) : Prop :=
  ∀ root parent head lookupFails,
    receiver.phase = .placing root parent head →
      label = .createStaging lookupFails false →
        (lookupFails = false →
          ∀ target,
            receiver.tree.symlinkMetadata
                (childLocation root head.relative) ≠
              .ok (.symlink target)) →
          ∀ target,
            receiver.tree.symlinkMetadata (stagingLocation parent head) ≠
              .ok (.symlink target)

/-- The file whose parent is at `parent` is the last one that was named; or,
when a directory frame is processed, no named path is a link. -/
def Ahead
    (receiver : DirectoryReceiver) (root parent : Location) :
    Option FileHead → Prop
  | none => NotLinked receiver.tree receiver.named
  | some head =>
      validateRelativePath .unix head.relative = .ok () ∧
        parent = root ++ (pathSegments head.relative).dropLast ∧
          receiver.named.getLast? = some (childLocation root head.relative)

/-- The staging file in its real directory. -/
structure StagingOpen
    (receiver : DirectoryReceiver) (root : Location) (head : FileHead)
    (staging : Location) (content : List UInt8) : Prop where
  accepted : validateRelativePath .unix head.relative = .ok ()
  isStaging :
    staging =
      root ++ (pathSegments head.relative).dropLast ++
        [stagingName (lastName head.relative)]
  real :
    receiver.tree.RealDirectory
      (root ++ (pathSegments head.relative).dropLast)
  isFile : receiver.tree staging = some (.file content)
  isLast :
    receiver.named.getLast? = some (childLocation root head.relative)

/-- What is known in a phase. -/
def JailPhase
    (base : Location) (stream : List UInt8) (receiver : DirectoryReceiver) :
    DirectoryReceivePhase → Prop
  | .opening =>
      receiver.input = stream ∧ receiver.named = [] ∧
        receiver.tree.RealDirectory base
  | .creatingRoot root =>
      RootOf base stream root ∧ receiver.named = [] ∧
        receiver.tree.RealDirectory base
  | .framing root =>
      RootOf base stream root ∧ receiver.tree.RealDirectory root ∧
        NotLinked receiver.tree receiver.named
  | .making root current name rest file =>
      RootOf base stream root ∧ receiver.tree.RealDirectory current ∧
        root <+: current ∧ Ahead receiver root (current ++ name :: rest) file
  | .placing root parent head =>
      RootOf base stream root ∧ receiver.tree.RealDirectory parent ∧
        root <+: parent ∧ Ahead receiver root parent (some head)
  | .copying root head staging opened copied =>
      RootOf base stream root ∧
        StagingOpen receiver root head staging copied ∧ opened = staging
  | .renaming root head staging =>
      RootOf base stream root ∧
        ∃ content, StagingOpen receiver root head staging content
  | .done => NotLinked receiver.tree receiver.named
  | .failed _ => True

/-- The invariant. -/
structure Jailed
    (base : Location) (stream : List UInt8) (tree : FileTree)
    (receiver : DirectoryReceiver) : Prop
    extends Confined base stream tree receiver where
  inPhase : JailPhase base stream receiver receiver.phase

theorem Jailed.staysInJail
    {base : Location} {stream : List UInt8} {tree : FileTree}
    {receiver : DirectoryReceiver}
    (jailed : Jailed base stream tree receiver) :
    StaysInJail base stream tree receiver where
  toConfined := jailed.toConfined
  completed := by
    intro isDone
    have inPhase := jailed.inPhase
    rw [isDone] at inPhase
    exact inPhase

/-! ## Trees without new links -/

theorem NoNewLinks.trans
    {first second third : FileTree} (earlier : NoNewLinks first second)
    (later : NoNewLinks second third) : NoNewLinks first third :=
  fun location target isLink =>
    earlier location target (later location target isLink)

theorem noNewLinks_put
    (tree : FileTree) (location : Location) (node : TreeNode)
    (notLink : ∀ target, node ≠ .symlink target) :
    NoNewLinks tree (tree.put location node) := by
  intro other target isLink
  by_cases same : other = location
  · subst same
    rw [FileTree.put_same] at isLink
    exact absurd (Option.some.inj isLink) (notLink target)
  · rwa [FileTree.put_other tree node same] at isLink

theorem noNewLinks_erase (tree : FileTree) (location : Location) :
    NoNewLinks tree (tree.erase location) := by
  intro other target isLink
  by_cases same : other = location
  · subst same
    rw [FileTree.erase_same] at isLink
    cases isLink
  · rwa [FileTree.erase_other tree same] at isLink

theorem NotLinked.later
    {tree next : FileTree} {locations : List Location}
    (notLinked : NotLinked tree locations) (links : NoNewLinks tree next) :
    NotLinked next locations :=
  fun location member target isLink =>
    notLinked location member target (links location target isLink)

theorem NotLinked.dropLast
    {tree : FileTree} {locations : List Location}
    (notLinked : NotLinked tree locations) :
    NotLinked tree locations.dropLast :=
  fun location member =>
    notLinked location (List.dropLast_subset _ member)

section Steps

variable {base : Location} {stream : List UInt8} {tree : FileTree}
  {receiver : DirectoryReceiver}

theorem Confined.fail
    (confined : Confined base stream tree receiver) (reason : String) :
    Jailed base stream tree (receiver.fail reason) where
  inside := confined.inside
  links := confined.links
  earlier := confined.earlier
  inPhase := trivial

/-- An operation below the root that makes no link. -/
theorem Confined.act
    (confined : Confined base stream tree receiver)
    {next : FileTree} {locations : List Location}
    (inside :
      ∀ location ∈ locations,
        ∃ root, RootOf base stream root ∧ root <+: location)
    (links : NoNewLinks receiver.tree next) :
    Confined base stream tree (receiver.act next locations) where
  inside := by
    intro location member
    rcases List.mem_append.mp member with before | now
    · exact confined.inside location before
    · exact inside location now
  links := confined.links.trans links
  earlier := confined.earlier.later links

theorem Confined.enter
    (confined : Confined base stream tree receiver)
    {root current : Location} {names : List String}
    {file : Option FileHead} (isRoot : RootOf base stream root)
    (real : receiver.tree.RealDirectory current)
    (below : root <+: current)
    (ahead : Ahead receiver root (current ++ names) file) :
    Jailed base stream tree (receiver.enter root current names file) := by
  cases names with
  | cons name rest =>
      exact
        { inside := confined.inside
          links := confined.links
          earlier := confined.earlier
          inPhase := ⟨isRoot, real, below, ahead⟩ }
  | nil =>
      rw [List.append_nil] at ahead
      cases file with
      | some head =>
          exact
            { inside := confined.inside
              links := confined.links
              earlier := confined.earlier
              inPhase := ⟨isRoot, real, below, ahead⟩ }
      | none =>
          obtain ⟨behind, rfl⟩ := below
          exact
            { inside := confined.inside
              links := confined.links
              earlier := confined.earlier
              inPhase := ⟨isRoot, real.above, ahead⟩ }

theorem jailed_openStream
    (jailed : Jailed base stream tree receiver)
    (isOpening : receiver.phase = .opening) :
    Jailed base stream tree (receiver.openStream base) := by
  have inPhase := jailed.inPhase
  rw [isOpening] at inPhase
  obtain ⟨isStream, noneNamed, real⟩ := inPhase
  rw [DirectoryReceiver.openStream]
  split
  · exact jailed.fail _
  · rename_i rootName rest isRoot
    split
    · exact jailed.fail _
    · rename_i accepted
      rw [isStream] at isRoot
      have location := rootLocation_eq isRoot accepted base
      exact
        { inside := jailed.inside
          links := jailed.links
          earlier := jailed.earlier
          inPhase :=
            ⟨⟨rootName, rest, isRoot, location⟩, noneNamed, real⟩ }

theorem jailed_inspectRoot
    (confined : Confined base stream tree receiver) {rootName : String}
    (isRoot : RootOf base stream (base ++ [rootName]))
    (noneNamed : receiver.named = [])
    (real : receiver.tree.RealDirectory base) (lookupFails : Bool) :
    Jailed base stream tree
      (receiver.inspectRoot (base ++ [rootName]) lookupFails) := by
  rw [DirectoryReceiver.inspectRoot.eq_def]
  split
  · rename_i isDirectory
    have node :
        receiver.tree (base ++ [rootName]) = some .directory := by
      rw [FileTree.symlinkMetadata_entry real rootName] at isDirectory
      cases found : receiver.tree (base ++ [rootName]) with
      | none =>
          rw [found] at isDirectory
          cases isDirectory
      | some node =>
          rw [found] at isDirectory
          cases isDirectory
          rfl
    have notLinked : NotLinked receiver.tree receiver.named := by
      rw [noneNamed]
      intro location member
      exact absurd member List.not_mem_nil
    exact
      { inside := confined.inside
        links := confined.links
        earlier := confined.earlier
        inPhase := ⟨isRoot, real.entry node, notLinked⟩ }
  · exact confined.fail _
  · exact confined.fail _

theorem jailed_createRoot
    (jailed : Jailed base stream tree receiver) {root : Location}
    (isCreating : receiver.phase = .creatingRoot root)
    (fails : Location → Bool) (lookupFails : Bool) :
    Jailed base stream tree
      (receiver.createRoot root fails lookupFails) := by
  have inPhase := jailed.inPhase
  rw [isCreating] at inPhase
  obtain ⟨⟨rootName, rest, isRoot, rfl⟩, noneNamed, real⟩ := inPhase
  have rootOf : RootOf base stream (base ++ [rootName]) :=
    ⟨rootName, rest, isRoot, rfl⟩
  rw [DirectoryReceiver.createRoot]
  rcases FileTree.createDirAll_entry real fails with
    ⟨isMade, isNone⟩ | ⟨outcome, isKept⟩
  · have confined :
        Confined base stream tree
          (receiver.act (receiver.tree.put (base ++ [rootName]) .directory)
            [base ++ [rootName]]) := by
      refine jailed.act ?_ (noNewLinks_put _ _ _ (by simp))
      intro location member
      rw [List.mem_singleton.mp member]
      exact ⟨_, rootOf, List.prefix_rfl⟩
    have keeps :=
      @FileTree.keepsDirectories_put receiver.tree (base ++ [rootName])
        .directory (by rw [isNone]; simp)
    rw [isMade]
    exact
      jailed_inspectRoot confined rootOf noneNamed (keeps.real real)
        lookupFails
  · have confined :
        Confined base stream tree (receiver.act receiver.tree []) :=
      jailed.act
        (fun location member => absurd member List.not_mem_nil)
        (fun _ _ isLink => isLink)
    rw [isKept]
    cases outcome with
    | error error => exact confined.fail _
    | ok done =>
        exact
          jailed_inspectRoot confined rootOf noneNamed real lookupFails

theorem jailed_createSafeDirectory
    (confined : Confined base stream tree receiver) {root : Location}
    (isRoot : RootOf base stream root)
    (real : receiver.tree.RealDirectory root) {relative : String}
    {file : Option FileHead}
    (ahead : Ahead receiver root (root ++ pathSegments relative) file) :
    Jailed base stream tree
      (receiver.createSafeDirectory root relative file) := by
  rw [DirectoryReceiver.createSafeDirectory]
  split
  · exact confined.fail _
  · rename_i accepted
    rw [normalNames_eq accepted]
    exact confined.enter isRoot real List.prefix_rfl ahead

theorem jailed_beginFile
    (confined : Confined base stream tree receiver) {root : Location}
    (isRoot : RootOf base stream root)
    (real : receiver.tree.RealDirectory root) {head : FileHead}
    (isLast :
      receiver.named.getLast? = some (childLocation root head.relative)) :
    Jailed base stream tree (receiver.beginFile root head) := by
  rw [DirectoryReceiver.beginFile]
  split
  · exact confined.fail _
  · rename_i accepted
    by_cases flat : parentText head.relative = ""
    · rw [if_pos flat]
      refine confined.enter isRoot real List.prefix_rfl ?_
      refine ⟨accepted, ?_, isLast⟩
      rw [parentText_eq_empty accepted flat]
    · rw [if_neg flat]
      refine jailed_createSafeDirectory confined isRoot real ?_
      refine ⟨accepted, ?_, isLast⟩
      rw [pathSegments_parentText flat]

theorem jailed_readFrame
    (jailed : Jailed base stream tree receiver) {root : Location}
    (isFraming : receiver.phase = .framing root) :
    Jailed base stream tree (receiver.readFrame root) := by
  have inPhase := jailed.inPhase
  rw [isFraming] at inPhase
  obtain ⟨isRoot, real, notLinked⟩ := inPhase
  have framing {next : DirectoryReceiver}
      (sameTree : next.tree = receiver.tree)
      (sameTouched : next.touched = receiver.touched)
      (sameNamed : next.named = receiver.named)
      (isPhase : next.phase = .framing root ∨ next.phase = .done) :
      Jailed base stream tree next := by
    refine
      { inside := sameTouched ▸ jailed.inside
        links := sameTree ▸ jailed.links
        earlier := by
          rw [sameTree, sameNamed]
          exact jailed.earlier
        inPhase := ?_ }
    rcases isPhase with isPhase | isPhase
    · rw [isPhase, JailPhase, sameTree, sameNamed]
      exact ⟨isRoot, real, notLinked⟩
    · rw [isPhase, JailPhase, sameTree, sameNamed]
      exact notLinked
  have confined (input : List UInt8) :
      Confined base stream tree { receiver with input := input } := {
    inside := jailed.inside
    links := jailed.links
    earlier := jailed.earlier }
  rw [DirectoryReceiver.readFrame]
  split
  · exact jailed.fail _
  · rename_i relative input _
    exact
      jailed_createSafeDirectory (confined input) isRoot real notLinked
  · exact framing rfl rfl rfl (.inl isFraming)
  · exact framing rfl rfl rfl (.inl isFraming)
  · rename_i relative size flag input _
    have withName :
        Confined base stream tree
          { receiver with
            input := input
            named := receiver.named ++ [childLocation root relative] } := {
      inside := jailed.inside
      links := jailed.links
      earlier := by
        rw [List.dropLast_concat]
        exact notLinked }
    exact jailed_beginFile withName isRoot real List.getLast?_concat
  · split
    · exact (confined _).fail _
    · exact framing rfl rfl rfl (.inr rfl)

theorem jailed_makeDirectory
    (jailed : Jailed base stream tree receiver)
    {root current : Location} {name : String} {rest : List String}
    {file : Option FileHead}
    (isMaking : receiver.phase = .making root current name rest file) :
    Jailed base stream tree
      (receiver.makeDirectory root current name rest file) := by
  have inPhase := jailed.inPhase
  rw [isMaking] at inPhase
  obtain ⟨isRoot, real, below, ahead⟩ := inPhase
  have behind : root <+: current ++ [name] :=
    below.trans (List.prefix_append _ _)
  have spelled : current ++ name :: rest = current ++ [name] ++ rest := by
    simp
  rw [spelled] at ahead
  have looked := FileTree.symlinkMetadata_entry real name
  have made := FileTree.createDir_entry real name
  rw [DirectoryReceiver.makeDirectory, looked, made]
  cases node : receiver.tree (current ++ [name]) with
  | some found =>
      cases found with
      | symlink target => exact jailed.fail _
      | file content => exact jailed.fail _
      | directory =>
          exact jailed.enter isRoot (real.entry node) behind ahead
  | none =>
      have keeps :=
        @FileTree.keepsDirectories_put receiver.tree (current ++ [name])
          .directory (by rw [node]; simp)
      have links :=
        noNewLinks_put receiver.tree (current ++ [name]) .directory
          (by simp)
      have confined :
          Confined base stream tree
            (receiver.act
              (receiver.tree.put (current ++ [name]) .directory)
              [current ++ [name]]) := by
        refine jailed.act ?_ links
        intro location member
        rw [List.mem_singleton.mp member]
        exact ⟨root, isRoot, behind⟩
      have stillAhead :
          Ahead
            (receiver.act
              (receiver.tree.put (current ++ [name]) .directory)
              [current ++ [name]])
            root (current ++ [name] ++ rest) file := by
        cases file with
        | none => exact NotLinked.later ahead links
        | some head => exact ahead
      exact
        confined.enter isRoot
          ((keeps.real real).entry (FileTree.put_same _ _ _)) behind
          stillAhead

theorem jailed_createStaging
    (jailed : Jailed base stream tree receiver)
    {root parent : Location} {head : FileHead}
    (isPlacing : receiver.phase = .placing root parent head)
    {lookupFails createFails : Bool}
    (notLink :
      StagingNotLink receiver (.createStaging lookupFails createFails)) :
    Jailed base stream tree
      (receiver.createStaging root parent head lookupFails createFails) := by
  have inPhase := jailed.inPhase
  rw [isPlacing] at inPhase
  obtain ⟨isRoot, real, below, accepted, isParent, isLast⟩ := inPhase
  rw [DirectoryReceiver.createStaging.eq_def]
  split
  · exact jailed.fail _
  · rename_i notRefused
    by_cases failed : createFails = true
    · rw [if_pos failed]
      exact jailed.fail _
    · rw [if_neg failed]
      have noLink :
          ∀ target,
            receiver.tree
                (parent ++ [stagingName (lastName head.relative)]) ≠
              some (.symlink target) := by
        intro target isLink
        refine
          notLink root parent head _ isPlacing
            (by rw [Bool.eq_false_of_not_eq_true failed]) ?_ target ?_
        · intro looks other isOther
          exact notRefused other looks isOther
        · rw [stagingLocation_eq accepted,
            FileTree.symlinkMetadata_entry real _, isLink]
      split
      · exact jailed.fail _
      · rename_i location next created
        have staged := stagingLocation_eq accepted parent
        rw [staged] at created
        obtain ⟨isLocation, notDirectory, isNext⟩ :=
          FileTree.createFile_entry real noLink created
        subst isLocation isNext
        have links :=
          noNewLinks_put receiver.tree
            (parent ++ [stagingName (lastName head.relative)]) (.file [])
            (by simp)
        have confined :
            Confined base stream tree
              (receiver.act
                (receiver.tree.put
                  (parent ++ [stagingName (lastName head.relative)])
                  (.file []))
                [parent ++ [stagingName (lastName head.relative)]]) := by
          refine jailed.act ?_ links
          intro location member
          rw [List.mem_singleton.mp member]
          exact
            ⟨root, isRoot, below.trans (List.prefix_append _ _)⟩
        have keeps :=
          FileTree.keepsDirectories_put _ (.file []) notDirectory
        rw [staged]
        exact
          { inside := confined.inside
            links := confined.links
            earlier := confined.earlier
            inPhase :=
              ⟨isRoot,
                { accepted := accepted
                  isStaging := by rw [isParent]
                  real := isParent ▸ keeps.real real
                  isFile := FileTree.put_same _ _ _
                  isLast := isLast },
                rfl⟩ }

/-- Appending to the staging file changes its content and nothing else. -/
theorem appendFile_eq
    {files : FileTree} {location : Location} {content : List UInt8}
    (isFile : files location = some (.file content))
    (bytes : List UInt8) :
    files.appendFile location bytes =
      files.put location (.file (content ++ bytes)) := by
  rw [FileTree.appendFile, isFile]

/-- What a write to the staging file keeps. -/
theorem StagingOpen.append
    {root : Location} {head : FileHead} {staging : Location}
    {content : List UInt8}
    (isOpen : StagingOpen receiver root head staging content)
    (bytes : List UInt8) {next : DirectoryReceiver}
    (isTree : next.tree = receiver.tree.appendFile staging bytes)
    (isNamed : next.named = receiver.named) :
    StagingOpen next root head staging (content ++ bytes) := by
  have notDirectory : receiver.tree staging ≠ some .directory := by
    rw [isOpen.isFile]
    simp
  have keeps :=
    FileTree.keepsDirectories_put _ (.file (content ++ bytes))
      notDirectory
  rw [appendFile_eq isOpen.isFile] at isTree
  exact
    { accepted := isOpen.accepted
      isStaging := isOpen.isStaging
      real := by
        rw [isTree]
        exact keeps.real isOpen.real
      isFile := by
        rw [isTree]
        exact FileTree.put_same _ _ _
      isLast := by
        rw [isNamed]
        exact isOpen.isLast }

theorem StagingOpen.same
    {root : Location} {head : FileHead} {staging : Location}
    {content : List UInt8}
    (isOpen : StagingOpen receiver root head staging content)
    {next : DirectoryReceiver} (isTree : next.tree = receiver.tree)
    (isNamed : next.named = receiver.named) :
    StagingOpen next root head staging content where
  accepted := isOpen.accepted
  isStaging := isOpen.isStaging
  real := isTree ▸ isOpen.real
  isFile := isTree ▸ isOpen.isFile
  isLast := isNamed ▸ isOpen.isLast

theorem StagingOpen.below
    {root : Location} {head : FileHead} {staging : Location}
    {content : List UInt8}
    (isOpen : StagingOpen receiver root head staging content) :
    root <+: staging := by
  rw [isOpen.isStaging, List.append_assoc]
  exact List.prefix_append _ _

theorem jailed_copyChunk
    (jailed : Jailed base stream tree receiver)
    {root : Location} {head : FileHead} {staging opened : Location}
    {copied : List UInt8}
    (isCopying :
      receiver.phase = .copying root head staging opened copied)
    (limit : Nat) (written : Option Nat) :
    Jailed base stream tree
      (receiver.copyChunk root head staging opened copied limit written) := by
  have inPhase := jailed.inPhase
  rw [isCopying] at inPhase
  obtain ⟨isRoot, isOpen, rfl⟩ := inPhase
  have appended (bytes : List UInt8) :
      Confined base stream tree
        (receiver.act (receiver.tree.appendFile opened bytes)
          [opened]) := by
    refine jailed.act ?_ ?_
    · intro location member
      rw [List.mem_singleton.mp member]
      exact ⟨root, isRoot, isOpen.below⟩
    · rw [appendFile_eq isOpen.isFile]
      exact noNewLinks_put _ _ _ (by simp)
  simp only [DirectoryReceiver.copyChunk]
  generalize
    receiver.input.take
        (max 1
          (min limit (min (head.size - copied.length) fileChunkSize))) =
      chunk
  split
  · exact jailed.fail _
  · cases written with
    | some count => exact (appended _).fail _
    | none =>
        exact
          { inside := (appended chunk).inside
            links := (appended chunk).links
            earlier := (appended chunk).earlier
            inPhase :=
              ⟨isRoot, isOpen.append _ rfl rfl, rfl⟩ }

theorem confined_discard
    (confined : Confined base stream tree receiver)
    {root : Location} {head : FileHead} {staging : Location}
    {content : List UInt8} (isRoot : RootOf base stream root)
    (isOpen : StagingOpen receiver root head staging content)
    (removeFails : Bool) :
    Confined base stream tree (receiver.discard staging removeFails) := by
  rw [DirectoryReceiver.discard.eq_def]
  split
  · rename_i location next _ removed
    have below := isOpen.below
    rw [isOpen.isStaging] at removed below
    obtain ⟨isLocation, _, isNext⟩ :=
      FileTree.removeFile_entry isOpen.real removed
    subst isLocation isNext
    refine confined.act ?_ (noNewLinks_erase _ _)
    intro location member
    rw [List.mem_singleton.mp member]
    exact ⟨root, isRoot, below⟩
  · exact confined

theorem jailed_finishContent
    (jailed : Jailed base stream tree receiver)
    {root : Location} {head : FileHead} {staging opened : Location}
    {copied : List UInt8}
    (isCopying :
      receiver.phase = .copying root head staging opened copied)
    (flushFails removeFails : Bool) :
    Jailed base stream tree
      (receiver.finishContent root head staging copied flushFails
        removeFails) := by
  have inPhase := jailed.inPhase
  rw [isCopying] at inPhase
  obtain ⟨isRoot, isOpen, rfl⟩ := inPhase
  have withInput (input : List UInt8) :
      Confined base stream tree { receiver with input := input } := {
    inside := jailed.inside
    links := jailed.links
    earlier := jailed.earlier }
  rw [DirectoryReceiver.finishContent]
  split
  · exact jailed.fail _
  · split
    · exact
        { inside := jailed.inside
          links := jailed.links
          earlier := jailed.earlier
          inPhase := ⟨isRoot, copied, isOpen.same rfl rfl⟩ }
    · split
      · exact jailed.fail _
      · rename_i expected input _
        split
        · exact
            { inside := jailed.inside
              links := jailed.links
              earlier := jailed.earlier
              inPhase := ⟨isRoot, copied, isOpen.same rfl rfl⟩ }
        · exact
            (confined_discard (withInput input) isRoot
                (isOpen.same rfl rfl) removeFails).fail _

/-- A tree in which a staging file was renamed. -/
theorem renamed_tree
    {files next : FileTree} {parent : Location} {name other : String}
    {content : List UInt8}
    (isFile : files (parent ++ [name]) = some (.file content))
    (notDirectory : files (parent ++ [other]) ≠ some .directory)
    (isNext :
      next =
        if name = other then files
        else
          (files.put (parent ++ [other]) (.file content)).erase
            (parent ++ [name])) :
    NoNewLinks files next ∧ files.KeepsDirectories next ∧
      next (parent ++ [other]) = some (.file content) := by
  by_cases same : name = other
  · subst same
    rw [if_pos rfl] at isNext
    subst isNext
    exact ⟨fun _ _ isLink => isLink, fun _ isThere => isThere, isFile⟩
  · rw [if_neg same] at isNext
    subst isNext
    have different : parent ++ [name] ≠ parent ++ [other] := by
      simpa using same
    have stillFile :
        files.put (parent ++ [other]) (.file content) (parent ++ [name]) =
          some (.file content) := by
      rw [FileTree.put_other _ _ different]
      exact isFile
    refine ⟨?_, ?_, ?_⟩
    · exact
        (noNewLinks_put _ _ _ (by simp)).trans (noNewLinks_erase _ _)
    · intro location isDirectory
      exact
        FileTree.keepsDirectories_erase (by rw [stillFile]; simp) location
          (FileTree.keepsDirectories_put _ _ notDirectory location
            isDirectory)
    · rw [FileTree.erase_other _ different.symm, FileTree.put_same]

/-- The staging file becomes the destination. -/
theorem jailed_renameStaging
    (jailed : Jailed base stream tree receiver)
    {root : Location} {head : FileHead} {staging : Location}
    (isRenaming : receiver.phase = .renaming root head staging)
    (fails : Bool) :
    Jailed base stream tree
      (receiver.renameStaging root head staging fails) := by
  have inPhase := jailed.inPhase
  rw [isRenaming] at inPhase
  obtain ⟨isRoot, content, isOpen⟩ := inPhase
  rw [DirectoryReceiver.renameStaging.eq_def]
  split
  · rename_i source target next renamed
    have isChild := childLocation_split isOpen.accepted root
    have isFile := isOpen.isFile
    rw [isOpen.isStaging] at renamed isFile
    rw [isChild] at renamed
    obtain ⟨isSource, isTarget, notDirectory, isNext⟩ :=
      FileTree.rename_entry isOpen.real isFile renamed
    subst isSource isTarget
    obtain ⟨links, keeps, isPlaced⟩ :=
      renamed_tree isFile notDirectory isNext
    have confined :
        Confined base stream tree
          (receiver.act next
            [root ++ (pathSegments head.relative).dropLast ++
                [stagingName (lastName head.relative)],
              root ++ (pathSegments head.relative).dropLast ++
                [lastName head.relative]]) := by
      refine jailed.act ?_ links
      intro location member
      refine ⟨root, isRoot, ?_⟩
      rcases List.mem_cons.mp member with rfl | later
      · rw [List.append_assoc]
        exact List.prefix_append _ _
      · rw [List.mem_singleton.mp later, List.append_assoc]
        exact List.prefix_append _ _
    have noneLinked : NotLinked next receiver.named := by
      intro location member link isLink
      have split := List.dropLast_append_getLast? _ isOpen.isLast
      rw [← split] at member
      rcases List.mem_append.mp member with before | isLast
      · exact
          jailed.earlier location before link (links location link isLink)
      · rw [List.mem_singleton.mp isLast, isChild, isPlaced] at isLink
        cases isLink
    exact
      { inside := confined.inside
        links := confined.links
        earlier := confined.earlier
        inPhase := ⟨isRoot, (keeps.real isOpen.real).above, noneLinked⟩ }
  · exact jailed.fail _

/-- Every admitted step keeps the invariant. -/
theorem jailed_step
    (jailed : Jailed base stream tree receiver)
    {label : DirectoryReceiveLabel} (admitted : StagingNotLink receiver label)
    {next : DirectoryReceiver}
    (stepped : directoryReceiveStep base receiver label = some next) :
    Jailed base stream tree next := by
  rw [directoryReceiveStep.eq_def] at stepped
  split at stepped
  · rename_i isPhase
    cases stepped
    exact jailed_openStream jailed isPhase
  · rename_i isPhase
    cases stepped
    exact jailed_createRoot jailed isPhase _ _
  · rename_i isPhase
    cases stepped
    exact jailed_readFrame jailed isPhase
  · rename_i isPhase
    split at stepped
    · cases stepped
      exact jailed.fail _
    · cases stepped
      exact jailed_makeDirectory jailed isPhase
  · rename_i isPhase
    cases stepped
    exact jailed_createStaging jailed isPhase admitted
  · rename_i isPhase
    split at stepped
    · cases stepped
      exact jailed_copyChunk jailed isPhase _ _
    · cases stepped
  · rename_i isPhase
    split at stepped
    · cases stepped
    · cases stepped
      exact jailed_finishContent jailed isPhase _ _
  · rename_i isPhase
    cases stepped
    exact jailed_renameStaging jailed isPhase _
  · split at stepped
    · cases stepped
      exact jailed.fail _
    · cases stepped
  · cases stepped

end Steps

theorem jailed_start
    {base : Location} {tree : FileTree} (real : tree.RealDirectory base)
    (stream : List UInt8) :
    Jailed base stream tree (.start tree stream) where
  inside := fun _ member => absurd member List.not_mem_nil
  links := fun _ _ isLink => isLink
  earlier := fun _ member => absurd member List.not_mem_nil
  inPhase := ⟨rfl, rfl, real⟩

/-- Below a real directory, a receive that never opens a staging name at which
there is a symbolic link stays in its jail. -/
theorem directory_receive_stays_in_jail
    (base : Location) (tree : FileTree) (real : tree.RealDirectory base)
    (stream : List UInt8) (labels : List DirectoryReceiveLabel)
    (receiver : DirectoryReceiver)
    (run :
      Run (directoryReceiveStep base) StagingNotLink (.start tree stream)
        labels receiver) :
    StaysInJail base stream tree receiver :=
  (run.preserves (Jailed base stream tree)
    (fun _ _ _ jailed admitted stepped => jailed_step jailed admitted stepped)
    (jailed_start real stream)).staysInJail

/-! ## Trees without a link at a staging name -/

/-- No symbolic link has the staging name of a file. -/
def Unplanted (tree : FileTree) : Prop :=
  ∀ location name target,
    tree (location ++ [stagingName name]) ≠ some (.symlink target)

theorem stagingNotLink_of_unplanted
    {receiver : DirectoryReceiver} (unplanted : Unplanted receiver.tree)
    (label : DirectoryReceiveLabel) : StagingNotLink receiver label := by
  intro root parent head lookupFails _ _ _ target isLink
  obtain ⟨location, planted⟩ := FileTree.symlinkMetadata_named isLink
  exact unplanted location _ target planted

/-- Where no link has a staging name at first, every run meets the
condition. -/
theorem run_stagingNotLink
    {base : Location} {tree : FileTree} (real : tree.RealDirectory base)
    (unplanted : Unplanted tree) {stream : List UInt8}
    {labels : List DirectoryReceiveLabel} {receiver : DirectoryReceiver}
    (run :
      Run (directoryReceiveStep base) anyStep (.start tree stream) labels
        receiver) :
    Run (directoryReceiveStep base) StagingNotLink (.start tree stream)
      labels receiver :=
  run.restrict (Jailed base stream tree)
    (fun _ label jailed _ =>
      stagingNotLink_of_unplanted
        (fun location name target isLink =>
          unplanted location name target (jailed.links _ target isLink))
        label)
    (fun _ _ _ jailed admitted stepped => jailed_step jailed admitted stepped)
    (jailed_start real stream)

/-- A stream with one file. -/
def oneFileStream : List UInt8 :=
  encodeStart "d" ++
    (encodeFrames [.file "a" [7] 0 []] ++
      encodeEnd (statsOf [.file "a" [7] 0 []]))

/-- The labels of its reception. -/
def oneFileLabels : List DirectoryReceiveLabel :=
  [.openStream, .createRoot (fun _ => false) false, .readFrame,
    .createStaging false false, .copyChunk 1 none,
    .finishContent false false, .renameStaging false, .readFrame]

/-- The directory `home`, and nothing in it. -/
def emptyHome : FileTree := fun location =>
  if location = ["home"] then some .directory else none

/-- A directory in which a link to a file outside of it is beside `a`. -/
def linkedHome : FileTree := fun location =>
  if location = ["home"] then some .directory
  else if location = ["home", "d"] then some .directory
  else if location = ["home", "d", "b"] then
    some (.symlink ⟨true, [.down "etc", .down "secret"]⟩)
  else if location = ["etc"] then some .directory
  else if location = ["etc", "secret"] then some (.file [1, 2])
  else none

theorem directory_receive_stays_in_home :
    ∃ receiver,
      Run (directoryReceiveStep ["home"]) StagingNotLink
          (.start linkedHome oneFileStream) oneFileLabels receiver ∧
        receiver.phase = .done ∧
          receiver.tree ["home", "d", "a"] = some (.file [7]) ∧
            StaysInJail ["home"] oneFileStream linkedHome receiver := by
  have ran :
      (replay (directoryReceiveStep ["home"])
          (.start linkedHome oneFileStream) oneFileLabels).map
          (fun receiver =>
            (receiver.phase, receiver.tree ["home", "d", "a"])) =
        some (.done, some (.file [7])) := by
    decide +kernel
  obtain ⟨receiver, reached, ends⟩ := Option.map_eq_some_iff.mp ran
  obtain ⟨finished, arrived⟩ := Prod.mk.inj ends
  have real : linkedHome.RealDirectory ["home"] := by
    intro count inside
    have isFirst : count = 0 := Nat.lt_one_iff.mp inside
    subst isFirst
    rfl
  have unplanted : Unplanted linkedHome := by
    intro location name target isLink
    have isPlace : location ++ [stagingName name] = ["home", "d", "b"] := by
      by_contra elsewhere
      rw [linkedHome, if_neg elsewhere] at isLink
      split_ifs at isLink <;> cases isLink
    have sameLast := congrArg List.getLast? isPlace
    rw [List.getLast?_concat] at sameLast
    have sameText := congrArg String.toList (Option.some.inj sameLast)
    rw [stagingName, String.toList_ofList] at sameText
    cases sameText
  have run := run_stagingNotLink real unplanted (run_of_replay reached)
  exact
    ⟨receiver, run, finished, arrived,
      directory_receive_stays_in_jail ["home"] linkedHome real oneFileStream
        oneFileLabels receiver run⟩

/-- A directory in which a link to a file outside of it has the staging name
of `a`. -/
def plantedHome : FileTree := fun location =>
  if location = ["home"] then some .directory
  else if location = ["home", "d"] then some .directory
  else if location = ["home", "d", ".a.quic-part"] then
    some (.symlink ⟨true, [.down "etc", .down "secret"]⟩)
  else if location = ["etc"] then some .directory
  else if location = ["etc", "secret"] then some (.file [1, 2])
  else none

/-- The file outside is overwritten, and the destination is the link. -/
theorem planted_staging_name_followed :
    plantedHome.RealDirectory ["home"] ∧
      ∃ receiver,
        Run (directoryReceiveStep ["home"]) anyStep
            (.start plantedHome oneFileStream) oneFileLabels receiver ∧
          receiver.phase = .done ∧
            receiver.tree ["etc", "secret"] = some (.file [7]) ∧
              receiver.tree ["home", "d", "a"] =
                  some
                    (.symlink ⟨true, [.down "etc", .down "secret"]⟩) ∧
                ¬StaysInJail ["home"] oneFileStream plantedHome
                    receiver := by
  refine ⟨?_, ?_⟩
  · intro count inside
    have isFirst : count = 0 := Nat.lt_one_iff.mp inside
    subst isFirst
    rfl
  · have ran :
        (replay (directoryReceiveStep ["home"])
            (.start plantedHome oneFileStream) oneFileLabels).map
            (fun receiver =>
              (receiver.phase, receiver.tree ["etc", "secret"],
                receiver.tree ["home", "d", "a"], receiver.named)) =
          some
            (.done, some (.file [7]),
              some (.symlink ⟨true, [.down "etc", .down "secret"]⟩),
              [["home", "d", "a"]]) := by
      decide +kernel
    obtain ⟨receiver, reached, same⟩ := Option.map_eq_some_iff.mp ran
    injection same with finished same
    injection same with overwritten same
    injection same with isLink isNamed
    refine
      ⟨receiver, run_of_replay reached, finished, overwritten, isLink, ?_⟩
    intro stays
    have notLinked := stays.completed finished ["home", "d", "a"]
    rw [isNamed] at notLinked
    exact notLinked List.mem_cons_self _ isLink

end Quiczilla
