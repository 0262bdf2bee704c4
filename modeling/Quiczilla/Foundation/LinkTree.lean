import Mathlib.Data.List.Basic
import Mathlib.Tactic.SplitIfs

/-!
# A file tree with symbolic links

A tree gives each location, the list of names from the root, the node that is
there.  A path is resolved name by name: a symbolic link on the way is replaced
by its target, a link at the end only by the operations that follow it.  The
operations are those of `std::fs` on Unix; each returns the location that it
acted on together with the tree that it leaves.
-/

namespace Quiczilla.Foundation

inductive LinkStep where
  | up
  | down (name : String)
  deriving DecidableEq, Repr

/-- The target of a symbolic link; a relative one starts at the directory that
holds the link. -/
structure LinkTarget where
  isAbsolute : Bool
  steps : List LinkStep
  deriving DecidableEq, Repr

inductive TreeNode where
  | file (content : List UInt8)
  | directory
  | symlink (target : LinkTarget)
  deriving DecidableEq, Repr

abbrev Location := List String

abbrev FileTree := Location → Option TreeNode

inductive FsError where
  | notFound
  | notADirectory
  | tooManyLinks
  | alreadyExists
  | isADirectory
  | inputOutput
  deriving DecidableEq, Repr

namespace FileTree

/-- Walk from a directory; `follow` continues behind a symbolic link. -/
def walkFrom
    (follow : Location → List LinkStep → Except FsError Location)
    (tree : FileTree) (followLast : Bool) :
    Location → List LinkStep → Except FsError Location
  | here, [] => .ok here
  | here, .up :: rest => walkFrom follow tree followLast here.dropLast rest
  | here, .down name :: rest =>
      match tree (here ++ [name]) with
      | some (.symlink target) =>
          if rest = [] ∧ followLast = false then .ok (here ++ [name])
          else
            follow (if target.isAbsolute then [] else here)
              (target.steps ++ rest)
      | some .directory =>
          walkFrom follow tree followLast (here ++ [name]) rest
      | some (.file _) =>
          if rest = [] then .ok (here ++ [name]) else .error .notADirectory
      | none =>
          if rest = [] then .ok (here ++ [name]) else .error .notFound

/-- Walk through at most so many symbolic links. -/
def walk (tree : FileTree) (followLast : Bool) :
    Nat → Location → List LinkStep → Except FsError Location
  | 0 => walkFrom (fun _ _ => .error .tooManyLinks) tree followLast
  | links + 1 => walkFrom (walk tree followLast links) tree followLast

/-- The location of a path given by names. -/
def resolve (tree : FileTree) (followLast : Bool) (path : Location) :
    Except FsError Location :=
  walk tree followLast 40 [] (path.map .down)

def put (tree : FileTree) (location : Location) (node : TreeNode) :
    FileTree :=
  fun other => if other = location then some node else tree other

def erase (tree : FileTree) (location : Location) : FileTree :=
  fun other => if other = location then none else tree other

/-- `symlink_metadata`: the node at the end of the path, links not followed. -/
def symlinkMetadata (tree : FileTree) (path : Location) :
    Except FsError TreeNode :=
  match tree.resolve false path with
  | .error error => .error error
  | .ok location =>
      match tree location with
      | some node => .ok node
      | none => .error .notFound

/-- `Path::is_dir`. -/
def isDir (tree : FileTree) (path : Location) : Bool :=
  match tree.resolve true path with
  | .error _ => false
  | .ok location => tree location = some .directory

/-- `create_dir`. -/
def createDir (tree : FileTree) (path : Location) :
    Except FsError (Location × FileTree) :=
  match tree.resolve false path with
  | .error error => .error error
  | .ok location =>
      if (tree location).isSome then .error .alreadyExists
      else .ok (location, tree.put location .directory)

/-- What `create_dir_all` did before it returned. -/
structure MadeAll where
  tree : FileTree
  created : List Location
  outcome : Except FsError Unit

/-- `create_dir` under an error that the system may report instead. -/
def tryCreateDir
    (fails : Location → Bool) (tree : FileTree) (path : Location) :
    Except FsError (Location × FileTree) :=
  if fails path then .error .inputOutput else tree.createDir path

/-- `create_dir_all` on a path given by its names, last one first. -/
def createDirAllReversed (fails : Location → Bool) (tree : FileTree) :
    List String → MadeAll
  | [] => ⟨tree, [], .ok ()⟩
  | name :: above =>
      match tree.tryCreateDir fails (name :: above).reverse with
      | .ok (location, made) => ⟨made, [location], .ok ()⟩
      | .error .notFound =>
          match createDirAllReversed fails tree above with
          | ⟨parents, created, .error error⟩ =>
              ⟨parents, created, .error error⟩
          | ⟨parents, created, .ok ()⟩ =>
              match parents.tryCreateDir fails (name :: above).reverse with
              | .ok (location, made) =>
                  ⟨made, created ++ [location], .ok ()⟩
              | .error error =>
                  ⟨parents, created,
                    if parents.isDir (name :: above).reverse then .ok ()
                    else .error error⟩
      | .error error =>
          ⟨tree, [],
            if tree.isDir (name :: above).reverse then .ok ()
            else .error error⟩

def createDirAll
    (fails : Location → Bool) (tree : FileTree) (path : Location) :
    MadeAll :=
  tree.createDirAllReversed fails path.reverse

/-- `File::create`: the file at the end of the path, links followed, is
created or truncated. -/
def createFile (tree : FileTree) (path : Location) :
    Except FsError (Location × FileTree) :=
  match tree.resolve true path with
  | .error error => .error error
  | .ok location =>
      match tree location with
      | some .directory => .error .isADirectory
      | _ => .ok (location, tree.put location (.file []))

/-- Write behind what the open file at the location holds. -/
def appendFile
    (tree : FileTree) (location : Location) (bytes : List UInt8) :
    FileTree :=
  match tree location with
  | some (.file content) => tree.put location (.file (content ++ bytes))
  | _ => tree

/-- `rename` of something that is not a directory: links at the two ends are
not followed, and a directory is not replaced. -/
def rename (tree : FileTree) (source target : Location) :
    Except FsError (Location × Location × FileTree) :=
  match tree.resolve false source, tree.resolve false target with
  | .error error, _ => .error error
  | _, .error error => .error error
  | .ok fromLocation, .ok toLocation =>
      match tree fromLocation with
      | none => .error .notFound
      | some .directory => .error .isADirectory
      | some node =>
          if tree toLocation = some .directory then .error .isADirectory
          else if fromLocation = toLocation then
            .ok (fromLocation, toLocation, tree)
          else
            .ok
              (fromLocation, toLocation,
                (tree.put toLocation node).erase fromLocation)

/-- `remove_file`. -/
def removeFile (tree : FileTree) (path : Location) :
    Except FsError (Location × FileTree) :=
  match tree.resolve false path with
  | .error error => .error error
  | .ok location =>
      match tree location with
      | none => .error .notFound
      | some .directory => .error .isADirectory
      | some _ => .ok (location, tree.erase location)

/-! ## Updates -/

@[simp]
theorem put_same (tree : FileTree) (location : Location) (node : TreeNode) :
    tree.put location node location = some node :=
  if_pos rfl

theorem put_other
    (tree : FileTree) {location other : Location} (node : TreeNode)
    (different : other ≠ location) :
    tree.put location node other = tree other :=
  if_neg different

@[simp]
theorem erase_same (tree : FileTree) (location : Location) :
    tree.erase location location = none :=
  if_pos rfl

theorem erase_other
    (tree : FileTree) {location other : Location}
    (different : other ≠ location) :
    tree.erase location other = tree other :=
  if_neg different

/-! ## Paths through directories -/

/-- Every location from below `here` down to `here ++ names` is a directory. -/
def DirectoriesBelow (tree : FileTree) (here names : Location) : Prop :=
  ∀ count, count < names.length →
    tree (here ++ names.take (count + 1)) = some .directory

/-- The location and everything above it are directories, no links. -/
def RealDirectory (tree : FileTree) (location : Location) : Prop :=
  tree.DirectoriesBelow [] location

theorem walkFrom_directories
    {follow : Location → List LinkStep → Except FsError Location}
    {tree : FileTree} {here names : Location}
    (directories : tree.DirectoriesBelow here names)
    (followLast : Bool) (rest : List LinkStep) :
    walkFrom follow tree followLast here (names.map .down ++ rest) =
      walkFrom follow tree followLast (here ++ names) rest := by
  induction names generalizing here with
  | nil =>
      rw [List.map_nil, List.nil_append, List.append_nil]
  | cons first later inductionHypothesis =>
      have firstDirectory : tree (here ++ [first]) = some .directory :=
        directories 0 (Nat.succ_pos _)
      have laterDirectories :
          tree.DirectoriesBelow (here ++ [first]) later := by
        intro count inside
        have node :=
          directories (count + 1) (Nat.succ_lt_succ inside)
        rw [List.take_succ_cons] at node
        rw [List.append_assoc]
        exact node
      rw [List.map_cons, List.cons_append, walkFrom, firstDirectory]
      refine (inductionHypothesis laterDirectories).trans ?_
      rw [List.append_assoc]
      rfl

theorem walk_eq_walkFrom (tree : FileTree) (followLast : Bool) (links : Nat) :
    ∃ follow, walk tree followLast links = walkFrom follow tree followLast := by
  cases links with
  | zero => exact ⟨_, rfl⟩
  | succ links => exact ⟨_, rfl⟩

/-- Where the last link is not followed, a walk ends at its last name. -/
theorem walkFrom_ends
    {follow : Location → List LinkStep → Except FsError Location}
    {tree : FileTree} {name : String} {location : Location}
    (follows :
      ∀ here steps, follow here (steps ++ [.down name]) = .ok location →
        ∃ parent, location = parent ++ [name])
    {here : Location} {steps : List LinkStep}
    (walked :
      walkFrom follow tree false here (steps ++ [.down name]) =
        .ok location) :
    ∃ parent, location = parent ++ [name] := by
  induction steps generalizing here with
  | nil =>
      rw [List.nil_append, walkFrom] at walked
      split at walked
      · simp only [true_and, if_true] at walked
        cases walked
        exact ⟨here, rfl⟩
      · cases walked
        exact ⟨here, rfl⟩
      · simp only [if_true] at walked
        cases walked
        exact ⟨here, rfl⟩
      · simp only [if_true] at walked
        cases walked
        exact ⟨here, rfl⟩
  | cons step rest inductionHypothesis =>
      have more : rest ++ [LinkStep.down name] ≠ [] := by simp
      cases step with
      | up =>
          rw [List.cons_append, walkFrom] at walked
          exact inductionHypothesis walked
      | down first =>
          rw [List.cons_append, walkFrom] at walked
          split at walked
          · rw [if_neg (fun atEnd => more atEnd.1), ← List.append_assoc]
              at walked
            exact follows _ _ walked
          · exact inductionHypothesis walked
          · rw [if_neg more] at walked
            cases walked
          · rw [if_neg more] at walked
            cases walked

theorem walk_ends
    {tree : FileTree} {name : String} {links : Nat} {here : Location}
    {steps : List LinkStep} {location : Location}
    (walked :
      walk tree false links here (steps ++ [.down name]) = .ok location) :
    ∃ parent, location = parent ++ [name] := by
  induction links generalizing here steps with
  | zero =>
      exact walkFrom_ends (fun _ _ stuck => by cases stuck) walked
  | succ links inductionHypothesis =>
      exact walkFrom_ends (fun _ _ => inductionHypothesis) walked

/-- A link that `symlink_metadata` finds has the last name of the path. -/
theorem symlinkMetadata_named
    {tree : FileTree} {path : Location} {name : String}
    {target : LinkTarget}
    (isLink : tree.symlinkMetadata (path ++ [name]) = .ok (.symlink target)) :
    ∃ parent, tree (parent ++ [name]) = some (.symlink target) := by
  rw [symlinkMetadata] at isLink
  split at isLink
  · cases isLink
  · rename_i location resolved
    rw [resolve, List.map_append, List.map_singleton] at resolved
    obtain ⟨parent, rfl⟩ := walk_ends resolved
    split at isLink
    · rename_i node
      cases isLink
      exact ⟨parent, node⟩
    · cases isLink

/-- In a real directory a name resolves to its entry; the last link is
followed only if there is one. -/
theorem resolve_entry
    {tree : FileTree} {parent : Location}
    (real : tree.RealDirectory parent) (followLast : Bool) {name : String}
    (notFollowed :
      followLast = true →
        ∀ target, tree (parent ++ [name]) ≠ some (.symlink target)) :
    tree.resolve followLast (parent ++ [name]) = .ok (parent ++ [name]) := by
  obtain ⟨follow, isWalk⟩ := walk_eq_walkFrom tree followLast 40
  rw [resolve, isWalk, List.map_append]
  refine (walkFrom_directories real followLast _).trans ?_
  rw [List.nil_append, List.map_singleton, walkFrom]
  cases node : tree (parent ++ [name]) with
  | none => rfl
  | some found =>
      cases found with
      | file content => rfl
      | directory => rfl
      | symlink target =>
          cases followLast with
          | false => rfl
          | true => exact absurd node (notFollowed rfl target)

theorem DirectoriesBelow.cons
    {tree : FileTree} {here rest : Location} {first : String}
    (isFirst : tree (here ++ [first]) = some .directory)
    (below : tree.DirectoriesBelow (here ++ [first]) rest) :
    tree.DirectoriesBelow here (first :: rest) := by
  intro count inside
  cases count with
  | zero => exact isFirst
  | succ count =>
      have node := below count (Nat.lt_of_succ_lt_succ inside)
      rw [List.append_assoc] at node
      exact node

/-- An entry of a real directory that is a directory is a real one. -/
theorem RealDirectory.entry
    {tree : FileTree} {parent : Location} {name : String}
    (real : tree.RealDirectory parent)
    (isDirectory : tree (parent ++ [name]) = some .directory) :
    tree.RealDirectory (parent ++ [name]) := by
  intro count inside
  rw [List.length_append, List.length_singleton] at inside
  by_cases isLast : count = parent.length
  · subst isLast
    have whole :
        (parent ++ [name]).take (parent.length + 1) = parent ++ [name] :=
      List.take_of_length_le
        (Nat.le_of_eq (List.length_append.trans (congrArg _ rfl)))
    rw [whole]
    exact isDirectory
  · have shorter : count + 1 ≤ parent.length := by omega
    rw [List.take_append_of_le_length shorter]
    exact real count (by omega)

theorem RealDirectory.above
    {tree : FileTree} {parent below : Location}
    (real : tree.RealDirectory (parent ++ below)) :
    tree.RealDirectory parent := by
  intro count inside
  have node := real count (by rw [List.length_append]; omega)
  rw [List.take_append_of_le_length (Nat.succ_le_of_lt inside)] at node
  exact node

/-- A tree that differs from another one at no directory keeps the
directories. -/
def KeepsDirectories (tree next : FileTree) : Prop :=
  ∀ location, tree location = some .directory →
    next location = some .directory

theorem KeepsDirectories.real
    {tree next : FileTree} (keeps : tree.KeepsDirectories next)
    {location : Location} (real : tree.RealDirectory location) :
    next.RealDirectory location :=
  fun count inside => keeps _ (real count inside)

theorem keepsDirectories_put
    {tree : FileTree} (location : Location) (node : TreeNode)
    (notDirectory : tree location ≠ some .directory) :
    tree.KeepsDirectories (tree.put location node) := by
  intro other isDirectory
  have different : other ≠ location := by
    rintro rfl
    exact notDirectory isDirectory
  rw [put_other tree node different]
  exact isDirectory

theorem keepsDirectories_erase
    {tree : FileTree} {location : Location}
    (notDirectory : tree location ≠ some .directory) :
    tree.KeepsDirectories (tree.erase location) := by
  intro other isDirectory
  have different : other ≠ location := by
    rintro rfl
    exact notDirectory isDirectory
  rw [erase_other tree different]
  exact isDirectory

/-! ## Operations on the entries of a real directory -/

section Entries

variable {tree : FileTree} {parent : Location} {name : String}

theorem symlinkMetadata_entry
    (real : tree.RealDirectory parent) (name : String) :
    tree.symlinkMetadata (parent ++ [name]) =
      match tree (parent ++ [name]) with
      | some node => .ok node
      | none => .error .notFound := by
  have resolved := @resolve_entry tree parent real false name (by simp)
  rw [symlinkMetadata, resolved]

theorem createDir_entry
    (real : tree.RealDirectory parent) (name : String) :
    tree.createDir (parent ++ [name]) =
      if (tree (parent ++ [name])).isSome then .error .alreadyExists
      else
        .ok
          (parent ++ [name], tree.put (parent ++ [name]) .directory) := by
  have resolved := @resolve_entry tree parent real false name (by simp)
  rw [createDir, resolved]

theorem createFile_entry
    (real : tree.RealDirectory parent)
    (notLink :
      ∀ target, tree (parent ++ [name]) ≠ some (.symlink target))
    {location : Location} {next : FileTree}
    (created : tree.createFile (parent ++ [name]) = .ok (location, next)) :
    location = parent ++ [name] ∧
      tree (parent ++ [name]) ≠ some .directory ∧
        next = tree.put (parent ++ [name]) (.file []) := by
  have resolved := @resolve_entry tree parent real true name fun _ => notLink
  rw [createFile, resolved] at created
  simp only at created
  split at created
  · cases created
  · rename_i notDirectory
    cases created
    exact ⟨rfl, notDirectory, rfl⟩

theorem removeFile_entry
    (real : tree.RealDirectory parent)
    {location : Location} {next : FileTree}
    (removed : tree.removeFile (parent ++ [name]) = .ok (location, next)) :
    location = parent ++ [name] ∧
      tree (parent ++ [name]) ≠ some .directory ∧
        next = tree.erase (parent ++ [name]) := by
  have resolved := @resolve_entry tree parent real false name (by simp)
  rw [removeFile, resolved] at removed
  simp only at removed
  split at removed
  · cases removed
  · cases removed
  · rename_i notDirectory
    cases removed
    refine ⟨rfl, ?_, rfl⟩
    intro isDirectory
    rw [isDirectory] at notDirectory
    simp_all

/-- A file is renamed within a real directory. -/
theorem rename_entry
    (real : tree.RealDirectory parent) {other : String}
    {content : List UInt8}
    (isFile : tree (parent ++ [name]) = some (.file content))
    {source target : Location} {next : FileTree}
    (renamed :
      tree.rename (parent ++ [name]) (parent ++ [other]) =
        .ok (source, target, next)) :
    source = parent ++ [name] ∧ target = parent ++ [other] ∧
      tree (parent ++ [other]) ≠ some .directory ∧
        next =
          if name = other then tree
          else
            (tree.put (parent ++ [other]) (.file content)).erase
              (parent ++ [name]) := by
  have fromResolved := @resolve_entry tree parent real false name (by simp)
  have toResolved := @resolve_entry tree parent real false other (by simp)
  rw [rename, fromResolved, toResolved] at renamed
  simp only [isFile] at renamed
  by_cases onDirectory : tree (parent ++ [other]) = some .directory
  · rw [if_pos onDirectory] at renamed
    cases renamed
  · rw [if_neg onDirectory] at renamed
    by_cases same : name = other
    · subst same
      rw [if_pos rfl] at renamed
      cases renamed
      exact ⟨rfl, rfl, onDirectory, (if_pos rfl).symm⟩
    · have different : parent ++ [name] ≠ parent ++ [other] := by
        simpa using same
      rw [if_neg different] at renamed
      cases renamed
      exact ⟨rfl, rfl, onDirectory, (if_neg same).symm⟩

/-- In a real directory `create_dir_all` makes one directory or none. -/
theorem createDirAll_entry
    (real : tree.RealDirectory parent) (fails : Location → Bool) :
    tree.createDirAll fails (parent ++ [name]) =
        ⟨tree.put (parent ++ [name]) .directory, [parent ++ [name]],
          .ok ()⟩ ∧
          tree (parent ++ [name]) = none ∨
      ∃ outcome,
        tree.createDirAll fails (parent ++ [name]) =
          ⟨tree, [], outcome⟩ := by
  have spelled : (name :: parent.reverse).reverse = parent ++ [name] := by
    simp
  have made := createDir_entry real name
  rw [createDirAll, List.reverse_append, List.reverse_singleton,
    List.singleton_append, createDirAllReversed, spelled,
    tryCreateDir]
  by_cases failed : fails (parent ++ [name]) = true
  · rw [if_pos failed]
    exact .inr ⟨_, rfl⟩
  · rw [if_neg failed, made]
    by_cases isThere : (tree (parent ++ [name])).isSome = true
    · rw [if_pos isThere]
      exact .inr ⟨_, rfl⟩
    · rw [if_neg isThere]
      exact .inl ⟨rfl, by simpa using isThere⟩

end Entries

/-! ## Walks behind a removal -/

/-- Without the node at its end a walk ends at the same place, or fails on the
way. -/
theorem walkFrom_erase
    {follow other : Location → List LinkStep → Except FsError Location}
    {tree : FileTree} {here location : Location} {steps : List LinkStep}
    (followed :
      ∀ here steps, follow here steps = .ok location →
        other here steps = .ok location ∨
          ∃ error, other here steps = .error error)
    (walked : walkFrom follow tree false here steps = .ok location) :
    walkFrom other (tree.erase location) false here steps = .ok location ∨
      ∃ error,
        walkFrom other (tree.erase location) false here steps =
          .error error := by
  induction steps generalizing here with
  | nil =>
      rw [walkFrom] at walked ⊢
      exact .inl walked
  | cons first rest inductionHypothesis =>
      cases first with
      | up =>
          rw [walkFrom] at walked ⊢
          exact inductionHypothesis walked
      | down name =>
          by_cases isEnd : here ++ [name] = location
          · rw [walkFrom, isEnd, erase_same]
            dsimp only
            split
            · exact .inl rfl
            · exact .inr ⟨_, rfl⟩
          · rw [walkFrom] at walked ⊢
            rw [erase_other tree isEnd]
            cases node : tree (here ++ [name]) with
            | none =>
                rw [node] at walked
                exact .inl walked
            | some found =>
                rw [node] at walked
                cases found with
                | file content => exact .inl walked
                | directory => exact inductionHypothesis walked
                | symlink target =>
                    dsimp only at walked ⊢
                    split at walked
                    · rename_i isLast
                      rw [if_pos isLast]
                      exact .inl walked
                    · rename_i notLast
                      rw [if_neg notLast]
                      exact followed _ _ walked

theorem walk_erase
    {tree : FileTree} {links : Nat} {here location : Location}
    {steps : List LinkStep}
    (walked : walk tree false links here steps = .ok location) :
    walk (tree.erase location) false links here steps = .ok location ∨
      ∃ error,
        walk (tree.erase location) false links here steps =
          .error error := by
  induction links generalizing here steps with
  | zero =>
      rw [walk] at walked ⊢
      refine walkFrom_erase ?_ walked
      intro _ _ isOk
      cases isOk
  | succ links inductionHypothesis =>
      rw [walk] at walked ⊢
      exact walkFrom_erase (fun _ _ => inductionHypothesis) walked

/-- Nothing is at a path behind its removal. -/
theorem symlinkMetadata_removed
    {tree next : FileTree} {path location : Location}
    (removed : tree.removeFile path = .ok (location, next))
    (node : TreeNode) : next.symlinkMetadata path ≠ .ok node := by
  rw [removeFile] at removed
  split at removed
  · cases removed
  · rename_i found resolved
    have isNext : next = tree.erase found := by
      split at removed
      · cases removed
      · cases removed
      · cases removed
        rfl
    subst isNext
    intro isThere
    rw [symlinkMetadata, resolve] at isThere
    rcases walk_erase resolved with same | ⟨error, fails⟩
    · rw [same] at isThere
      simp only [erase_same] at isThere
      cases isThere
    · rw [fails] at isThere
      cases isThere

/-! ## Directories along a path -/

/-- The tree in which every location below `root` on the way to these names
is a directory. -/
def makeDirectories (tree : FileTree) (root names : Location) : FileTree :=
  fun location =>
    if ∃ count < names.length, location = root ++ names.take (count + 1) then
      some .directory
    else tree location

section MakeDirectories

variable {tree : FileTree} {root names : Location}

theorem makeDirectories_of_directories
    (directories : tree.DirectoriesBelow root names) :
    tree.makeDirectories root names = tree := by
  funext location
  rw [makeDirectories]
  split
  · rename_i isOnWay
    obtain ⟨count, inside, rfl⟩ := isOnWay
    exact (directories count inside).symm
  · rfl

theorem makeDirectories_nil :
    tree.makeDirectories root [] = tree :=
  makeDirectories_of_directories
    (fun count inside => absurd inside (Nat.not_lt_zero count))

theorem makeDirectories_concat (name : String) :
    tree.makeDirectories root (names ++ [name]) =
      (tree.makeDirectories root names).put (root ++ names ++ [name])
        .directory := by
  have whole : (names ++ [name]).take (names.length + 1) = names ++ [name] :=
    List.take_of_length_le
      (Nat.le_of_eq (List.length_append.trans (congrArg _ rfl)))
  funext location
  by_cases isLast : location = root ++ names ++ [name]
  · rw [isLast, put_same, makeDirectories, if_pos]
    refine ⟨names.length, ?_, ?_⟩
    · rw [List.length_append, List.length_singleton]
      exact Nat.lt_succ_self _
    · rw [whole, List.append_assoc]
  · rw [put_other _ _ isLast, makeDirectories, makeDirectories]
    congr 1
    apply propext
    constructor
    · rintro ⟨count, inside, rfl⟩
      rw [List.length_append, List.length_singleton] at inside
      have notEnd : count ≠ names.length := by
        rintro rfl
        rw [whole, ← List.append_assoc] at isLast
        exact isLast rfl
      have before : count < names.length := by omega
      refine ⟨count, before, ?_⟩
      rw [List.take_append_of_le_length (Nat.succ_le_of_lt before)]
    · rintro ⟨count, inside, rfl⟩
      refine ⟨count, ?_, ?_⟩
      · rw [List.length_append, List.length_singleton]
        exact Nat.lt_succ_of_lt inside
      · rw [List.take_append_of_le_length (Nat.succ_le_of_lt inside)]

/-- The way itself consists of directories. -/
theorem makeDirectories_directories :
    (tree.makeDirectories root names).DirectoriesBelow root names :=
  fun count inside => if_pos ⟨count, inside, rfl⟩

end MakeDirectories

theorem RealDirectory.append
    {tree : FileTree} {root names : Location}
    (real : tree.RealDirectory root)
    (below : tree.DirectoriesBelow root names) :
    tree.RealDirectory (root ++ names) := by
  intro count inside
  rw [List.length_append] at inside
  by_cases inRoot : count < root.length
  · rw [List.take_append_of_le_length (Nat.succ_le_of_lt inRoot)]
    exact real count inRoot
  · have node := below (count - root.length) (by omega)
    have sum : count + 1 = root.length + (count - root.length + 1) := by
      omega
    rw [sum, List.take_length_add_append]
    exact node

/-- The later tree has new directories where nothing was, and is the earlier
one elsewhere. -/
def GrowsDirectories (tree next : FileTree) : Prop :=
  ∀ location, next location = tree location ∨
    tree location = none ∧ next location = some .directory

theorem GrowsDirectories.refl (tree : FileTree) :
    tree.GrowsDirectories tree :=
  fun _ => .inl rfl

theorem GrowsDirectories.trans
    {first second third : FileTree} (earlier : first.GrowsDirectories second)
    (later : second.GrowsDirectories third) :
    first.GrowsDirectories third := by
  intro location
  rcases later location with same | ⟨isNone, isNew⟩
  · rw [same]
    exact earlier location
  · rcases earlier location with before | ⟨_, isDirectory⟩
    · exact .inr ⟨before ▸ isNone, isNew⟩
    · rw [isDirectory] at isNone
      cases isNone

theorem growsDirectories_put
    {tree : FileTree} {location : Location}
    (isNone : tree location = none) :
    tree.GrowsDirectories (tree.put location .directory) := by
  intro other
  by_cases same : other = location
  · subst same
    exact .inr ⟨isNone, put_same _ _ _⟩
  · exact .inl (put_other tree _ same)

theorem tryCreateDir_grows
    {tree next : FileTree} {fails : Location → Bool}
    {path location : Location}
    (created : tree.tryCreateDir fails path = .ok (location, next)) :
    tree.GrowsDirectories next := by
  rw [tryCreateDir] at created
  split at created
  · cases created
  · rw [createDir] at created
    split at created
    · cases created
    · split at created
      · cases created
      · rename_i notThere
        cases created
        exact growsDirectories_put (by simpa using notThere)

/-- Whatever `create_dir_all` returns, it made directories and nothing
else. -/
theorem createDirAllReversed_grows
    (fails : Location → Bool) (tree : FileTree) (reversed : List String) :
    tree.GrowsDirectories
      (tree.createDirAllReversed fails reversed).tree := by
  induction reversed with
  | nil => exact .refl tree
  | cons name above inductionHypothesis =>
      rw [createDirAllReversed]
      split
      · rename_i created
        exact tryCreateDir_grows created
      · split
        · rename_i isAbove
          rw [isAbove] at inductionHypothesis
          exact inductionHypothesis
        · rename_i isAbove
          rw [isAbove] at inductionHypothesis
          split
          · rename_i created
            exact inductionHypothesis.trans (tryCreateDir_grows created)
          · exact inductionHypothesis
      · exact .refl tree

/-! ## Trees without links -/

/-- There is no symbolic link in the tree. -/
def LinkFree (tree : FileTree) : Prop :=
  ∀ location target, tree location ≠ some (.symlink target)

section LinkFree

variable {tree : FileTree}

theorem LinkFree.put
    (linkFree : tree.LinkFree) (location : Location) (node : TreeNode)
    (notLink : ∀ target, node ≠ .symlink target) :
    (tree.put location node).LinkFree := by
  intro other target isLink
  by_cases same : other = location
  · subst same
    rw [put_same] at isLink
    exact notLink target (Option.some.inj isLink)
  · rw [put_other tree node same] at isLink
    exact linkFree other target isLink

theorem LinkFree.erase
    (linkFree : tree.LinkFree) (location : Location) :
    (tree.erase location).LinkFree := by
  intro other target isLink
  by_cases same : other = location
  · subst same
    rw [erase_same] at isLink
    cases isLink
  · rw [erase_other tree same] at isLink
    exact linkFree other target isLink

theorem LinkFree.grow
    (linkFree : tree.LinkFree) {next : FileTree}
    (grows : tree.GrowsDirectories next) : next.LinkFree := by
  intro location target isLink
  rcases grows location with same | ⟨_, isDirectory⟩
  · rw [same] at isLink
    exact linkFree location target isLink
  · rw [isDirectory] at isLink
    cases isLink

theorem LinkFree.makeDirectories
    (linkFree : tree.LinkFree) (root names : Location) :
    (tree.makeDirectories root names).LinkFree := by
  intro other target isLink
  rw [FileTree.makeDirectories] at isLink
  split at isLink
  · cases isLink
  · exact linkFree other target isLink

theorem walkFrom_linkFree
    (linkFree : tree.LinkFree)
    {follow : Location → List LinkStep → Except FsError Location}
    {followLast : Bool} {here names location : Location}
    (walked :
      walkFrom follow tree followLast here (names.map .down) =
        .ok location) :
    location = here ++ names ∧
      tree.DirectoriesBelow here names.dropLast := by
  induction names generalizing here with
  | nil =>
      cases walked
      exact
        ⟨(List.append_nil _).symm,
          fun count inside => absurd inside (Nat.not_lt_zero count)⟩
  | cons first rest inductionHypothesis =>
      rw [List.map_cons, walkFrom] at walked
      have atEnd (isEnd : rest.map LinkStep.down = [])
          (isHere : (.ok (here ++ [first]) : Except FsError Location) =
            .ok location) :
          location = here ++ first :: rest ∧
            tree.DirectoriesBelow here (first :: rest).dropLast := by
        have noRest : rest = [] := List.map_eq_nil_iff.mp isEnd
        subst noRest
        cases isHere
        exact
          ⟨rfl, fun count inside => absurd inside (Nat.not_lt_zero count)⟩
      cases node : tree (here ++ [first]) with
      | none =>
          rw [node] at walked
          by_cases isEnd : rest.map LinkStep.down = []
          · simp only [if_pos isEnd] at walked
            exact atEnd isEnd walked
          · simp only [if_neg isEnd] at walked
            cases walked
      | some found =>
          rw [node] at walked
          cases found with
          | symlink target => exact absurd node (linkFree _ target)
          | file content =>
              by_cases isEnd : rest.map LinkStep.down = []
              · simp only [if_pos isEnd] at walked
                exact atEnd isEnd walked
              · simp only [if_neg isEnd] at walked
                cases walked
          | directory =>
              obtain ⟨isLocation, below⟩ := inductionHypothesis walked
              refine ⟨isLocation.trans (List.append_assoc _ _ _), ?_⟩
              cases rest with
              | nil =>
                  exact fun count inside =>
                    absurd inside (Nat.not_lt_zero count)
              | cons second others =>
                  rw [List.dropLast_cons_of_ne_nil (List.cons_ne_nil _ _)]
                  exact below.cons node

/-- Without links a path that resolves is its own location, in a real
directory. -/
theorem resolve_linkFree
    (linkFree : tree.LinkFree) {followLast : Bool} {path location : Location}
    (resolved : tree.resolve followLast path = .ok location) :
    location = path ∧ tree.RealDirectory path.dropLast := by
  obtain ⟨follow, isWalk⟩ := walk_eq_walkFrom tree followLast 40
  rw [resolve, isWalk] at resolved
  exact walkFrom_linkFree linkFree resolved

/-- A path at which `symlink_metadata` finds a directory is a real one. -/
theorem symlinkMetadata_linkFree
    (linkFree : tree.LinkFree) {path : Location}
    (found : tree.symlinkMetadata path = .ok .directory) :
    tree.RealDirectory path := by
  rw [symlinkMetadata] at found
  split at found
  · cases found
  · rename_i location resolved
    obtain ⟨rfl, real⟩ := resolve_linkFree linkFree resolved
    split at found
    · rename_i node isNode
      cases found
      rcases List.eq_nil_or_concat location with rfl | ⟨parent, name, rfl⟩
      · exact fun count inside => absurd inside (Nat.not_lt_zero count)
      · rw [List.concat_eq_append, List.dropLast_concat] at real
        rw [List.concat_eq_append] at isNode ⊢
        exact real.entry isNode
    · cases found

theorem isDir_linkFree
    (linkFree : tree.LinkFree) {parent : Location} {name : String}
    (isDirectory : tree.isDir (parent ++ [name]) = true) :
    tree.RealDirectory (parent ++ [name]) := by
  rw [isDir] at isDirectory
  split at isDirectory
  · cases isDirectory
  · rename_i location resolved
    obtain ⟨rfl, real⟩ := resolve_linkFree linkFree resolved
    rw [List.dropLast_concat] at real
    exact real.entry (by simpa using isDirectory)

theorem tryCreateDir_linkFree
    (linkFree : tree.LinkFree) {fails : Location → Bool}
    {parent location : Location} {name : String} {next : FileTree}
    (created :
      tree.tryCreateDir fails (parent ++ [name]) = .ok (location, next)) :
    tree.RealDirectory parent ∧
      next = tree.put (parent ++ [name]) .directory := by
  rw [tryCreateDir] at created
  split at created
  · cases created
  · rw [createDir] at created
    split at created
    · cases created
    · rename_i found resolved
      obtain ⟨rfl, real⟩ := resolve_linkFree linkFree resolved
      rw [List.dropLast_concat] at real
      split at created
      · cases created
      · cases created
        exact ⟨real, rfl⟩

/-- In a tree without links, `create_dir_all` makes what is missing on the
way, and nothing else. -/
theorem createDirAllReversed_linkFree
    (linkFree : tree.LinkFree) {fails : Location → Bool}
    {reversed : List String} {next : FileTree} {created : List Location}
    (made :
      tree.createDirAllReversed fails reversed =
        ⟨next, created, .ok ()⟩) :
    next = tree.makeDirectories [] reversed.reverse := by
  induction reversed generalizing next created with
  | nil =>
      cases made
      exact makeDirectories_nil.symm
  | cons name above inductionHypothesis =>
      have spelled : (name :: above).reverse = above.reverse ++ [name] := by
        simp
      have byEntry {files other : FileTree} {location : Location}
          (isFree : files.LinkFree)
          (isPut :
            files.tryCreateDir fails (above.reverse ++ [name]) =
              .ok (location, other))
          (isMade : files = tree.makeDirectories [] above.reverse) :
          other = tree.makeDirectories [] (above.reverse ++ [name]) := by
        obtain ⟨_, isOther⟩ := tryCreateDir_linkFree isFree isPut
        rw [isOther, isMade, makeDirectories_concat, List.nil_append]
      rw [createDirAllReversed, spelled] at made
      rw [spelled]
      split at made
      · rename_i location other isPut
        cases made
        obtain ⟨real, _⟩ := tryCreateDir_linkFree linkFree isPut
        exact
          byEntry linkFree isPut (makeDirectories_of_directories real).symm
      · split at made
        · cases made
        · rename_i parents before isAbove
          have isParents := inductionHypothesis isAbove
          have parentsFree : parents.LinkFree := by
            rw [isParents]
            exact linkFree.makeDirectories _ _
          split at made
          · rename_i location other isPut
            cases made
            exact byEntry parentsFree isPut isParents
          · injection made with isNext isCreated isOk
            subst isNext
            split at isOk
            · rename_i isDirectory
              have real := isDir_linkFree parentsFree isDirectory
              have same :
                  parents.makeDirectories [] (above.reverse ++ [name]) =
                    parents :=
                makeDirectories_of_directories real
              rw [makeDirectories_concat, List.nil_append, ← isParents]
              rw [makeDirectories_concat, List.nil_append,
                makeDirectories_of_directories real.above] at same
              exact same.symm
            · cases isOk
      · injection made with isNext isCreated isOk
        subst isNext
        split at isOk
        · rename_i isDirectory
          exact
            (makeDirectories_of_directories
              (isDir_linkFree linkFree isDirectory)).symm
        · cases isOk

theorem createDirAll_linkFree
    (linkFree : tree.LinkFree) {fails : Location → Bool} {path : Location}
    {next : FileTree} {created : List Location}
    (made : tree.createDirAll fails path = ⟨next, created, .ok ()⟩) :
    next = tree.makeDirectories [] path := by
  have whole := createDirAllReversed_linkFree linkFree made
  rwa [List.reverse_reverse] at whole

end LinkFree

end FileTree

end Quiczilla.Foundation
