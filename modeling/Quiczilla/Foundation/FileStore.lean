import Mathlib.Logic.Function.Basic

/-!
# A store of files

The part of a file system that a program observes through a handful of calls:
existence, length, whole contents, creation with truncation, `set_len`, writes
at a position, rename and recursive directory creation.  Every operation that
the operating system may refuse returns `none` where the kind of the node
already rules it out.

A rename replaces the destination in one step.  Handles are identified with
paths, which is exact as long as nobody renames a path that is open elsewhere.
-/

namespace Quiczilla.Foundation

universe u

inductive Node where
  | file (content : List UInt8)
  | directory (length : Nat)
  deriving DecidableEq, Repr

abbrev FileStore (Path : Type u) := Path → Option Node

/-- `set_len` on contents: cut off or pad with zeros. -/
def resized (length : Nat) (content : List UInt8) : List UInt8 :=
  content.take length ++ List.replicate (length - content.length) 0

/-- Contents after writing `bytes` at `offset`. -/
def overwritten
    (content : List UInt8) (offset : Nat) (bytes : List UInt8) :
    List UInt8 :=
  resized offset content ++ bytes ++ content.drop (offset + bytes.length)

theorem resized_of_le
    {length : Nat} {content : List UInt8}
    (fits : length ≤ content.length) :
    resized length content = content.take length := by
  rw [resized, Nat.sub_eq_zero_of_le fits, List.replicate_zero,
    List.append_nil]

/-- Writing at the end of the contents appends. -/
theorem overwritten_at_end (content bytes : List UInt8) :
    overwritten content content.length bytes = content ++ bytes := by
  have beyond : content.drop (content.length + bytes.length) = [] :=
    List.drop_eq_nil_of_le (Nat.le_add_right _ _)
  rw [overwritten, resized_of_le (Nat.le_refl _), List.take_length, beyond,
    List.append_nil]

theorem overwritten_of_le
    {content : List UInt8} {offset : Nat} (bytes : List UInt8)
    (within : offset ≤ content.length) :
    overwritten content offset bytes =
      content.take offset ++ bytes ++
        content.drop (offset + bytes.length) := by
  rw [overwritten, resized_of_le within]

theorem take_overwritten
    {content : List UInt8} {offset : Nat} (bytes : List UInt8)
    (within : offset ≤ content.length) :
    (overwritten content offset bytes).take (offset + bytes.length) =
      content.take offset ++ bytes := by
  have reached :
      (content.take offset ++ bytes).length = offset + bytes.length := by
    rw [List.length_append, List.length_take_of_le within]
  rw [overwritten_of_le bytes within, ← reached, List.take_left]

theorem length_overwritten_le
    {content bytes : List UInt8} {offset bound : Nat}
    (within : offset ≤ content.length)
    (contentFits : content.length ≤ bound)
    (bytesFit : offset + bytes.length ≤ bound) :
    (overwritten content offset bytes).length ≤ bound := by
  rw [overwritten_of_le bytes within, List.length_append,
    List.length_append, List.length_take_of_le within, List.length_drop]
  omega

namespace FileStore

variable {Path : Type u}

/-- `Path::exists`. -/
def isPresent (store : FileStore Path) (path : Path) : Bool :=
  (store path).isSome

/-- `metadata().len()`. -/
def length? (store : FileStore Path) (path : Path) : Option Nat :=
  match store path with
  | some (.file content) => some content.length
  | some (.directory length) => some length
  | none => none

/-- What reading the whole file yields. -/
def content? (store : FileStore Path) (path : Path) :
    Option (List UInt8) :=
  match store path with
  | some (.file content) => some content
  | _ => none

theorem content?_eq_some
    {store : FileStore Path} {path : Path} {content : List UInt8} :
    store.content? path = some content ↔
      store path = some (.file content) := by
  unfold content?
  split <;> simp_all

theorem length?_of_file
    {store : FileStore Path} {path : Path} {content : List UInt8}
    (isFile : store path = some (.file content)) :
    store.length? path = some content.length := by
  rw [length?, isFile]

variable [DecidableEq Path]

def put (store : FileStore Path) (path : Path) (content : List UInt8) :
    FileStore Path :=
  Function.update store path (some (.file content))

@[simp]
theorem put_same
    (store : FileStore Path) (path : Path) (content : List UInt8) :
    (store.put path content) path = some (.file content) :=
  Function.update_self _ _ _

theorem put_other
    (store : FileStore Path) {path other : Path} (content : List UInt8)
    (different : other ≠ path) :
    (store.put path content) other = store other :=
  Function.update_of_ne different _ _

def remove (store : FileStore Path) (path : Path) : FileStore Path :=
  Function.update store path none

@[simp]
theorem remove_same (store : FileStore Path) (path : Path) :
    (store.remove path) path = none :=
  Function.update_self _ _ _

theorem remove_other
    (store : FileStore Path) {path other : Path}
    (different : other ≠ path) :
    (store.remove path) other = store other :=
  Function.update_of_ne different _ _

/-- `File::create`: create or truncate. -/
def create (store : FileStore Path) (path : Path) :
    Option (FileStore Path) :=
  match store path with
  | some (.directory _) => none
  | _ => some (store.put path [])

/-- Open for writing with `create(true)` and `truncate(false)`. -/
def openWrite (store : FileStore Path) (path : Path) :
    Option (FileStore Path) :=
  match store path with
  | some (.directory _) => none
  | some (.file _) => some store
  | none => some (store.put path [])

/-- `set_len` through a handle opened for writing. -/
def setLength (store : FileStore Path) (path : Path) (length : Nat) :
    Option (FileStore Path) :=
  match store path with
  | some (.file content) => some (store.put path (resized length content))
  | _ => none

/-- Write through an open handle positioned at `offset`. -/
def writeAt
    (store : FileStore Path) (path : Path) (offset : Nat)
    (bytes : List UInt8) : FileStore Path :=
  match store path with
  | some (.file content) =>
      store.put path (overwritten content offset bytes)
  | _ => store

/-- `rename` of a file, which replaces a file but not a directory. -/
def rename (store : FileStore Path) (source target : Path) :
    Option (FileStore Path) :=
  match store source, store target with
  | some (.file _), some (.directory _) => none
  | some (.file content), _ =>
      some ((store.remove source).put target content)
  | _, _ => none

/-- `create_dir_all` along the ancestors of a path, outermost first.  A new
directory occupies one block. -/
def ensureDirectories (store : FileStore Path) :
    List Path → Option (FileStore Path)
  | [] => some store
  | path :: rest =>
      match store path with
      | some (.directory _) => ensureDirectories store rest
      | some (.file _) => none
      | none =>
          ensureDirectories
            (Function.update store path (some (.directory 4096))) rest

/-- Outside the ancestors nothing changes, and files stay files. -/
theorem ensureDirectories_spec
    {store next : FileStore Path} {ancestors : List Path}
    (made : store.ensureDirectories ancestors = some next) (path : Path) :
    next path = store path ∨
      (path ∈ ancestors ∧ store path = none ∧
        next path = some (.directory 4096)) := by
  induction ancestors generalizing store with
  | nil =>
      cases made
      exact Or.inl rfl
  | cons ancestor rest inductionHypothesis =>
      rw [ensureDirectories] at made
      split at made
      · rcases inductionHypothesis made with same | ⟨member, created⟩
        · exact Or.inl same
        · exact Or.inr ⟨List.mem_cons_of_mem _ member, created⟩
      · cases made
      · rename_i missing
        by_cases here : path = ancestor
        · rcases inductionHypothesis made with same | ⟨_, absent, _⟩
          · refine Or.inr ⟨?_, ?_, ?_⟩
            · rw [here]
              exact List.mem_cons_self
            · rw [here, missing]
            · rw [same, here, Function.update_self]
          · rw [here, Function.update_self] at absent
            cases absent
        · rcases inductionHypothesis made with
            same | ⟨member, absent, created⟩
          · rw [Function.update_of_ne here] at same
            exact Or.inl same
          · rw [Function.update_of_ne here] at absent
            exact
              Or.inr ⟨List.mem_cons_of_mem _ member, absent, created⟩

theorem ensureDirectories_of_directories
    {store : FileStore Path} {ancestors : List Path}
    (present :
      ∀ path ∈ ancestors, ∃ length,
        store path = some (.directory length)) :
    store.ensureDirectories ancestors = some store := by
  induction ancestors with
  | nil =>
      rfl
  | cons ancestor rest inductionHypothesis =>
      obtain ⟨length, isDirectory⟩ := present ancestor List.mem_cons_self
      rw [ensureDirectories, isDirectory]
      exact
        inductionHypothesis fun path member =>
          present path (List.mem_cons_of_mem _ member)

theorem create_of_absent
    {store : FileStore Path} {path : Path} (absent : store path = none) :
    store.create path = some (store.put path []) := by
  rw [create, absent]

theorem create_eq_some
    {store next : FileStore Path} {path : Path}
    (created : store.create path = some next) :
    next = store.put path [] ∧
      ∀ length, store path ≠ some (.directory length) := by
  unfold create at created
  split at created
  · cases created
  · rename_i notDirectory
    exact ⟨(Option.some.inj created).symm, notDirectory⟩

theorem openWrite_eq_some
    {store next : FileStore Path} {path : Path}
    (opened : store.openWrite path = some next) :
    (next = store ∧ ∃ content, store path = some (.file content)) ∨
      (store path = none ∧ next = store.put path []) := by
  unfold openWrite at opened
  split at opened
  · cases opened
  · rename_i content present
    exact Or.inl ⟨(Option.some.inj opened).symm, content, present⟩
  · rename_i absent
    exact Or.inr ⟨absent, (Option.some.inj opened).symm⟩

theorem setLength_eq_some
    {store next : FileStore Path} {path : Path} {length : Nat}
    (cut : store.setLength path length = some next) :
    ∃ content, store path = some (.file content) ∧
      next = store.put path (resized length content) := by
  unfold setLength at cut
  split at cut
  · rename_i content present
    exact ⟨content, present, (Option.some.inj cut).symm⟩
  · cases cut

theorem rename_eq_some
    {store next : FileStore Path} {source target : Path}
    (renamed : store.rename source target = some next) :
    ∃ content, store source = some (.file content) ∧
      next = (store.remove source).put target content ∧
        ∀ length, store target ≠ some (.directory length) := by
  unfold rename at renamed
  split at renamed
  · cases renamed
  · rename_i content present notBoth
    exact
      ⟨content, present, (Option.some.inj renamed).symm,
        fun length isDirectory =>
          notBoth length isDirectory⟩
  · cases renamed

/-- `set_len` to the length that a file has. -/
theorem setLength_of_file
    {store : FileStore Path} {path : Path} {content : List UInt8}
    (present : store path = some (.file content)) :
    store.setLength path content.length = some store := by
  rw [setLength, present]
  simp only [resized_of_le (Nat.le_refl _), List.take_length]
  rw [put, ← present, Function.update_eq_self]

theorem rename_of_file
    {store : FileStore Path} {source target : Path} {content : List UInt8}
    (present : store source = some (.file content))
    (notDirectory : ∀ length, store target ≠ some (.directory length)) :
    store.rename source target =
      some ((store.remove source).put target content) := by
  rw [rename, present]
  cases isTarget : store target with
  | none => rfl
  | some node =>
      cases node with
      | file other => rfl
      | directory length => exact absurd isTarget (notDirectory length)

theorem writeAt_other
    (store : FileStore Path) {path other : Path} (offset : Nat)
    (bytes : List UInt8) (different : other ≠ path) :
    (store.writeAt path offset bytes) other = store other := by
  rw [writeAt]
  rcases store path with _ | content | length
  · rfl
  · exact put_other store _ different
  · rfl

theorem writeAt_same
    {store : FileStore Path} {path : Path} {content : List UInt8}
    (present : store path = some (.file content))
    (offset : Nat) (bytes : List UInt8) :
    (store.writeAt path offset bytes) path =
      some (.file (overwritten content offset bytes)) := by
  rw [writeAt, present]
  exact put_same store _ _

/-! ## Directories stay directories -/

def KeepsDirectories (store next : FileStore Path) : Prop :=
  ∀ path length, store path = some (.directory length) →
    next path = some (.directory length)

omit [DecidableEq Path] in
theorem keepsDirectories_refl (store : FileStore Path) :
    store.KeepsDirectories store :=
  fun _ _ isDirectory => isDirectory

omit [DecidableEq Path] in
theorem KeepsDirectories.trans
    {store middle next : FileStore Path}
    (first : store.KeepsDirectories middle)
    (second : middle.KeepsDirectories next) :
    store.KeepsDirectories next :=
  fun path length isDirectory =>
    second path length (first path length isDirectory)

theorem keepsDirectories_put
    {store : FileStore Path} {path : Path} (content : List UInt8)
    (notDirectory : ∀ length, store path ≠ some (.directory length)) :
    store.KeepsDirectories (store.put path content) := by
  intro other length isDirectory
  have different : other ≠ path := by
    rintro rfl
    exact notDirectory length isDirectory
  rw [put_other store content different, isDirectory]

theorem notDirectory_of_eq
    {node : Option Node} {other : Option Node}
    (isOther : node = other)
    (notDirectory : ∀ length, other ≠ some (.directory length)) :
    ∀ length, node ≠ some (.directory length) :=
  isOther ▸ notDirectory

theorem keepsDirectories_create
    {store next : FileStore Path} {path : Path}
    (created : store.create path = some next) :
    store.KeepsDirectories next := by
  obtain ⟨rfl, notDirectory⟩ := create_eq_some created
  exact keepsDirectories_put [] notDirectory

theorem keepsDirectories_openWrite
    {store next : FileStore Path} {path : Path}
    (opened : store.openWrite path = some next) :
    store.KeepsDirectories next := by
  rcases openWrite_eq_some opened with ⟨rfl, _⟩ | ⟨absent, rfl⟩
  · exact keepsDirectories_refl next
  · exact
      keepsDirectories_put [] (notDirectory_of_eq absent nofun)

theorem keepsDirectories_setLength
    {store next : FileStore Path} {path : Path} {length : Nat}
    (cut : store.setLength path length = some next) :
    store.KeepsDirectories next := by
  obtain ⟨content, present, rfl⟩ := setLength_eq_some cut
  exact keepsDirectories_put _ (notDirectory_of_eq present nofun)

theorem keepsDirectories_writeAt
    (store : FileStore Path) (path : Path) (offset : Nat)
    (bytes : List UInt8) :
    store.KeepsDirectories (store.writeAt path offset bytes) := by
  unfold writeAt
  split
  · rename_i content present
    exact keepsDirectories_put _ (notDirectory_of_eq present nofun)
  · exact keepsDirectories_refl store

theorem keepsDirectories_rename
    {store next : FileStore Path} {source target : Path}
    (renamed : store.rename source target = some next) :
    store.KeepsDirectories next := by
  obtain ⟨content, present, rfl, notDirectory⟩ := rename_eq_some renamed
  intro other length isDirectory
  have notSource : other ≠ source := by
    rintro rfl
    rw [present] at isDirectory
    cases isDirectory
  have notTarget : other ≠ target := by
    rintro rfl
    exact notDirectory length isDirectory
  rw [put_other _ content notTarget, remove_other store notSource,
    isDirectory]

theorem keepsDirectories_ensureDirectories
    {store next : FileStore Path} {ancestors : List Path}
    (made : store.ensureDirectories ancestors = some next) :
    store.KeepsDirectories next := by
  intro path length isDirectory
  rcases ensureDirectories_spec made path with same | ⟨_, absent, _⟩
  · rw [same, isDirectory]
  · rw [absent] at isDirectory
    cases isDirectory

end FileStore

end Quiczilla.Foundation
