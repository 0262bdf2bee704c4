import Mathlib.Data.List.Basic

/-!
# Unix paths as `std::path` sees them

`std::path::Path` compares, joins and renames by components: repeated
separators, trailing separators and `.` (other than a leading one) leave no
component.  A path is represented by its component list, and the operations
below are the ones that `Path` and `PathBuf` define on it.
-/

namespace Quiczilla.Foundation

inductive Component where
  | rootDir
  | curDir
  | parentDir
  | normal (name : String)
  deriving DecidableEq, Repr

abbrev UnixPath := List Component

/-- The pieces of a string between separators. -/
def segments : List Char → List (List Char)
  | [] => [[]]
  | character :: rest =>
      if character = '/' then
        [] :: segments rest
      else
        match segments rest with
        | [] => [[character]]
        | first :: others => (character :: first) :: others

def Component.ofSegment (segment : List Char) : Option Component :=
  if segment = [] then none
  else if segment = ['.'] then none
  else if segment = ['.', '.'] then some .parentDir
  else some (.normal (String.ofList segment))

/-- `Path::components`. -/
@[irreducible]
def components (path : String) : UnixPath :=
  if path.toList.head? = some '/' then
    .rootDir :: (segments path.toList).filterMap Component.ofSegment
  else if (segments path.toList).head? = some ['.'] then
    .curDir :: (segments path.toList).filterMap Component.ofSegment
  else
    (segments path.toList).filterMap Component.ofSegment

/-- `Path::file_name`. -/
def fileName (path : UnixPath) : Option String :=
  match path.getLast? with
  | some (.normal name) => some name
  | _ => none

/-- `Path::parent`. -/
def parent (path : UnixPath) : Option UnixPath :=
  match path.getLast? with
  | some .rootDir => none
  | some _ => some path.dropLast
  | none => none

/-- `Path::join`: an absolute path replaces the base, and a leading `.` counts
only at the start of a path. -/
def join (base path : UnixPath) : UnixPath :=
  if path.head? = some .rootDir then path
  else if base = [] then path
  else base ++ path.filter (· ≠ .curDir)

/-- `Path::with_file_name`. -/
def withFileName (path : UnixPath) (name : String) : UnixPath :=
  if (fileName path).isSome then
    join path.dropLast (components name)
  else
    join path (components name)

/-- A name that `Path` reads back as the one component it spells. -/
def IsNormalName (name : String) : Prop :=
  name ≠ "" ∧ name ≠ "." ∧ name ≠ ".." ∧ '/' ∉ name.toList

instance (name : String) : Decidable (IsNormalName name) :=
  inferInstanceAs (Decidable (_ ∧ _ ∧ _ ∧ _))

theorem segments_of_no_separator
    {text : List Char} (noSeparator : '/' ∉ text) :
    segments text = [text] := by
  induction text with
  | nil =>
      rfl
  | cons character rest inductionHypothesis =>
      have different : character ≠ '/' := by
        rintro rfl
        exact noSeparator List.mem_cons_self
      have restFree : '/' ∉ rest :=
        fun member => noSeparator (List.mem_cons_of_mem _ member)
      rw [segments, if_neg different, inductionHypothesis restFree]

theorem separator_notMem_segment
    {text segment : List Char} (member : segment ∈ segments text) :
    '/' ∉ segment := by
  induction text generalizing segment with
  | nil =>
      rw [segments, List.mem_singleton] at member
      rw [member]
      exact List.not_mem_nil
  | cons character rest inductionHypothesis =>
      rw [segments] at member
      split at member
      · rcases List.mem_cons.mp member with rfl | earlier
        · exact List.not_mem_nil
        · exact inductionHypothesis earlier
      · rename_i different
        cases split : segments rest with
        | nil =>
            rw [split, List.mem_singleton] at member
            rw [member, List.mem_singleton]
            exact fun same => different same.symm
        | cons first others =>
            rw [split] at member
            rw [split] at inductionHypothesis
            rcases List.mem_cons.mp member with rfl | later
            · intro separator
              rcases List.mem_cons.mp separator with same | inside
              · exact different same.symm
              · exact
                  inductionHypothesis List.mem_cons_self inside
            · exact
                inductionHypothesis (List.mem_cons_of_mem _ later)

theorem ofSegment_normal
    {name : String} (normal : IsNormalName name) :
    Component.ofSegment name.toList = some (.normal name) := by
  obtain ⟨notEmpty, notDot, notDotDot, _⟩ := normal
  have spelled : String.ofList name.toList = name := String.ofList_toList
  have notNil : name.toList ≠ [] := by
    intro nil
    rw [nil] at spelled
    exact notEmpty spelled.symm
  have notSingleDot : name.toList ≠ ['.'] := by
    intro dot
    rw [dot] at spelled
    exact notDot spelled.symm
  have notDoubleDot : name.toList ≠ ['.', '.'] := by
    intro dots
    rw [dots] at spelled
    exact notDotDot spelled.symm
  rw [Component.ofSegment, if_neg notNil, if_neg notSingleDot,
    if_neg notDoubleDot, spelled]

theorem filterMap_segments_normal
    {name : String} (normal : IsNormalName name) :
    (segments name.toList).filterMap Component.ofSegment =
      [.normal name] := by
  rw [segments_of_no_separator normal.2.2.2, List.filterMap_cons,
    ofSegment_normal normal]
  rfl

theorem components_of_normal
    {name : String} (normal : IsNormalName name) :
    components name = [.normal name] := by
  have noSeparator := normal.2.2.2
  have notSingleDot : name.toList ≠ ['.'] := by
    intro dot
    have spelled : String.ofList name.toList = name :=
      String.ofList_toList
    rw [dot] at spelled
    exact normal.2.1 spelled.symm
  have noRoot : name.toList.head? ≠ some '/' := by
    intro leading
    exact noSeparator (List.mem_of_mem_head? leading)
  have notCurrent : (segments name.toList).head? ≠ some ['.'] := by
    rw [segments_of_no_separator noSeparator, List.head?_cons]
    simpa using notSingleDot
  rw [components, if_neg noRoot, if_neg notCurrent]
  exact filterMap_segments_normal normal

theorem isNormalName_ofSegment
    {segment : List Char} {name : String}
    (noSeparator : '/' ∉ segment)
    (spelled : Component.ofSegment segment = some (.normal name)) :
    IsNormalName name := by
  unfold Component.ofSegment at spelled
  split at spelled
  · cases spelled
  · rename_i notNil
    split at spelled
    · cases spelled
    · rename_i notDot
      split at spelled
      · cases spelled
      · rename_i notDotDot
        cases spelled
        have back : (String.ofList segment).toList = segment :=
          String.toList_ofList
        refine ⟨?_, ?_, ?_, ?_⟩
        · intro same
          rw [same] at back
          exact notNil back.symm
        · intro same
          rw [same] at back
          exact notDot back.symm
        · intro same
          rw [same] at back
          exact notDotDot back.symm
        · rwa [back]

/-- Every named component of a parsed path is a normal name. -/
theorem isNormalName_of_mem_components
    (path : String) {name : String}
    (member : Component.normal name ∈ components path) :
    IsNormalName name := by
  have inBody :
      Component.normal name ∈
        (segments path.toList).filterMap Component.ofSegment := by
    unfold components at member
    split at member
    · rcases List.mem_cons.mp member with root | inside
      · cases root
      · exact inside
    · split at member
      · rcases List.mem_cons.mp member with dot | inside
        · cases dot
        · exact inside
      · exact member
  obtain ⟨segment, isSegment, spelled⟩ := List.mem_filterMap.mp inBody
  exact
    isNormalName_ofSegment (separator_notMem_segment isSegment) spelled

theorem fileName_eq_some
    {path : UnixPath} {name : String}
    (named : fileName path = some name) :
    path = path.dropLast ++ [.normal name] := by
  unfold fileName at named
  split at named
  · rename_i last isLast
    cases named
    have notNil : path ≠ [] := by
      rintro rfl
      cases isLast
    have last_eq : path.getLast notNil = .normal name := by
      rw [List.getLast?_eq_some_getLast notNil] at isLast
      exact Option.some.inj isLast
    rw [← last_eq, List.dropLast_concat_getLast]
  · cases named

theorem isNormalName_fileName
    {path name : String}
    (named : fileName (components path) = some name) :
    IsNormalName name := by
  apply isNormalName_of_mem_components path
  rw [fileName_eq_some named]
  exact List.mem_append_right _ (List.mem_singleton.mpr rfl)

@[simp]
theorem fileName_append_normal (path : UnixPath) (name : String) :
    fileName (path ++ [.normal name]) = some name := by
  simp [fileName]

theorem components_empty : components "" = [] := by
  decide +kernel

theorem join_nil (base : UnixPath) : join base [] = base := by
  unfold join
  by_cases empty : base = []
  · simp [empty]
  · simp [empty]

theorem join_normal
    (base : UnixPath) {name : String} (normal : IsNormalName name) :
    join base (components name) = base ++ [.normal name] := by
  rw [components_of_normal normal, join]
  by_cases empty : base = []
  · simp [empty]
  · simp [empty]

theorem segments_ne_nil (text : List Char) : segments text ≠ [] := by
  cases text with
  | nil => exact List.cons_ne_nil _ _
  | cons character rest =>
      rw [segments]
      split
      · exact List.cons_ne_nil _ _
      · split <;> exact List.cons_ne_nil _ _

theorem segments_append_separator (first second : List Char) :
    segments (first ++ '/' :: second) =
      segments first ++ segments second := by
  induction first with
  | nil =>
      rw [List.nil_append]
      exact if_pos rfl
  | cons character rest inductionHypothesis =>
      rw [List.cons_append, segments, segments, inductionHypothesis]
      split
      · rfl
      · cases parts : segments rest with
        | nil => exact absurd parts (segments_ne_nil rest)
        | cons head others => rfl

/-- A relative part below a path that is spelled out. -/
theorem components_append_separator
    {first : List Char} (second : List Char) (notEmpty : first ≠ []) :
    components (String.ofList (first ++ '/' :: second)) =
      components (String.ofList first) ++
        (segments second).filterMap Component.ofSegment := by
  have sameHead :
      (first ++ '/' :: second).head? = first.head? :=
    List.head?_append_of_ne_nil _ notEmpty
  have sameSegment :
      (segments first ++ segments second).head? =
        (segments first).head? :=
    List.head?_append_of_ne_nil _ (segments_ne_nil first)
  simp only [components, String.toList_ofList, sameHead,
    segments_append_separator, sameSegment, List.filterMap_append]
  split
  · rfl
  · split <;> rfl

theorem segments_separators (count : Nat) :
    (segments (List.replicate count '/')).filterMap
      Component.ofSegment = [] := by
  induction count with
  | zero => rfl
  | succ count inductionHypothesis =>
      rw [List.replicate_succ, segments, if_pos rfl,
        List.filterMap_cons]
      exact inductionHypothesis

/-- Trailing separators name the same path. -/
theorem components_trailing
    {text : List Char} (notEmpty : text ≠ []) (count : Nat) :
    components (String.ofList (text ++ List.replicate count '/')) =
      components (String.ofList text) := by
  cases count with
  | zero => rw [List.replicate_zero, List.append_nil]
  | succ count =>
      rw [List.replicate_succ, components_append_separator _ notEmpty,
        segments_separators, List.append_nil]

/-- A path that is spelled below the root. -/
theorem components_below_root (text : List Char) :
    components (String.ofList ('/' :: text)) =
      .rootDir :: (segments text).filterMap Component.ofSegment := by
  have body :
      (segments ('/' :: text)).filterMap Component.ofSegment =
        (segments text).filterMap Component.ofSegment := by
    rw [← List.nil_append ('/' :: text), segments_append_separator]
    rfl
  rw [components, String.toList_ofList, if_pos (by rfl), body]

theorem components_separators (count : Nat) :
    components (String.ofList (List.replicate (count + 1) '/')) =
      [.rootDir] := by
  rw [List.replicate_succ, components_below_root, segments_separators]

end Quiczilla.Foundation
