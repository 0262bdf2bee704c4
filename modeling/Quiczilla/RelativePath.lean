import Quiczilla.Foundation.PlatformPath
import Quiczilla.Foundation.Text

/-!
# Relative paths of the directory protocol

`validate_relative_path` mixes tests on the text with tests on what
`Path::components` makes of it; `safe_child` and `create_safe_directory` push
the components one by one, and every push parses its component again.  The
parsers agree on an accepted path as long as no segment of it begins with a
drive prefix; `Path::components` itself looks for one in the first segment
only.
-/

namespace Quiczilla

open Foundation

def maxPathBytes : Nat := 32 * 1024

/-- The arm that accepts a component. -/
def acceptsComponent : Component → Bool
  | .normal name =>
      name ≠ "." && name ≠ ".." && !name.toList.any isControl
  | _ => false

def validateRelativePath (platform : Platform) (value : String) :
    Except String Unit :=
  if value = "" ∨ maxPathBytes < value.utf8ByteSize ∨
      '\x00' ∈ value.toList ∨ '\\' ∈ value.toList ∨
      value.toList.head? = some '~' ∨ value.toList.head? = some '$' then
    .error "invalid directory transfer path"
  else if ∃ segment ∈ segments value.toList,
      segment = [] ∨ segment = ['.'] ∨ segment = ['.', '.'] then
    .error "directory transfer path contains empty or relative segment"
  else if (platform.parse value).isAbsolute platform ∨
      (platform.parse value).hasRoot ∨
      (platform.parse value).componentCount = 0 then
    .error "directory transfer path must be relative"
  else if (platform.parse value).drive.isSome ∨
      ∃ component ∈ (platform.parse value).body,
        acceptsComponent component = false then
    .error "directory transfer path contains an unsafe component"
  else .ok ()

def safeChild
    (platform : Platform) (root : PlatformPath) (relative : String) :
    Except String PlatformPath :=
  match validateRelativePath platform relative with
  | .error reason => .error reason
  | .ok () =>
      .ok
        ((platform.parse relative).normalNames.foldl
          (PlatformPath.pushName platform) root)

/-- The values that `current` takes while these names are pushed. -/
def pushedPaths (platform : Platform) (current : PlatformPath) :
    List String → List PlatformPath
  | [] => []
  | name :: rest =>
      current.pushName platform name ::
        pushedPaths platform (current.pushName platform name) rest

/-- The paths that `create_safe_directory(root, Some(relative))` builds. -/
def createdPaths
    (platform : Platform) (root : PlatformPath) (relative : String) :
    Except String (List PlatformPath) :=
  match validateRelativePath platform relative with
  | .error reason => .error reason
  | .ok () =>
      .ok
        (pushedPaths platform root (platform.parse relative).normalNames)

/-- The segments of a relative path, as texts. -/
def pathSegments (relative : String) : List String :=
  (segments relative.toList).map String.ofList

/-- A segment that names an entry of its directory. -/
structure IsSafeSegment (segment : String) : Prop where
  normal : IsNormalName segment
  noBackslash : '\\' ∉ segment.toList
  noControl : ∀ character ∈ segment.toList, isControl character = false

/-- `safe_child` gives the root followed by the segments, and
`create_safe_directory` builds the root followed by their initial runs. -/
structure StaysBelow
    (platform : Platform) (root : PlatformPath) (relative : String) :
    Prop where
  child :
    safeChild platform root relative =
      .ok (root.append (pathSegments relative))
  created :
    ∃ built, createdPaths platform root relative = .ok built ∧
      ∀ index (isIndex : index < built.length),
        built[index] =
          root.append ((pathSegments relative).take (index + 1))

/-- No segment begins with a drive prefix of the platform. -/
def NoDriveSegment (platform : Platform) (relative : String) : Prop :=
  ∀ segment ∈ pathSegments relative, ¬platform.HasDrive segment

instance (platform : Platform) (relative : String) :
    Decidable (NoDriveSegment platform relative) :=
  inferInstanceAs (Decidable (∀ _ ∈ _, _))

/-! ## What the validator accepts -/

theorem mem_of_mem_segment
    {text segment : List Char} (member : segment ∈ segments text)
    {character : Char} (inside : character ∈ segment) :
    character ∈ text := by
  induction text generalizing segment with
  | nil =>
      rw [segments, List.mem_singleton] at member
      rw [member] at inside
      exact inside
  | cons first rest inductionHypothesis =>
      rw [segments] at member
      split at member
      · rcases List.mem_cons.mp member with rfl | later
        · exact absurd inside List.not_mem_nil
        · exact
            List.mem_cons_of_mem first (inductionHypothesis later inside)
      · cases split : segments rest with
        | nil => exact absurd split (segments_ne_nil rest)
        | cons head others =>
            rw [split] at member inductionHypothesis
            rcases List.mem_cons.mp member with rfl | later
            · rcases List.mem_cons.mp inside with rfl | behind
              · exact List.mem_cons_self
              · exact
                  List.mem_cons_of_mem first
                    (inductionHypothesis List.mem_cons_self behind)
            · exact
                List.mem_cons_of_mem first
                  (inductionHypothesis (List.mem_cons_of_mem head later)
                    inside)

/-- The tests on the text alone. -/
structure PassesTextTests (value : String) : Prop where
  noBackslash : '\\' ∉ value.toList
  normal :
    ∀ segment ∈ segments value.toList,
      segment ≠ [] ∧ segment ≠ ['.'] ∧ segment ≠ ['.', '.']

theorem PassesTextTests.isNormalName
    {value : String} (passes : PassesTextTests value)
    {segment : List Char} (member : segment ∈ segments value.toList) :
    IsNormalName (String.ofList segment) := by
  obtain ⟨notNil, notDot, notDots⟩ := passes.normal segment member
  have back : (String.ofList segment).toList = segment :=
    String.toList_ofList
  refine ⟨?_, ?_, ?_, ?_⟩
  · intro same
    rw [same] at back
    exact notNil back.symm
  · intro same
    rw [same] at back
    exact notDot back.symm
  · intro same
    rw [same] at back
    exact notDots back.symm
  · rw [back]
    exact separator_notMem_segment member

/-- A text without empty and relative segments is read as its segments. -/
theorem PassesTextTests.components_eq
    {value : String} (passes : PassesTextTests value) :
    components value = (pathSegments value).map .normal := by
  have noRoot : value.toList.head? ≠ some '/' := by
    intro leading
    cases spelled : value.toList with
    | nil =>
        rw [spelled] at leading
        cases leading
    | cons first rest =>
        rw [spelled] at leading
        cases leading
        have normal := passes.normal []
        rw [spelled, segments, if_pos rfl] at normal
        exact (normal List.mem_cons_self).1 rfl
  have noDot : (segments value.toList).head? ≠ some ['.'] := by
    intro leading
    exact (passes.normal _ (List.mem_of_mem_head? leading)).2.1 rfl
  unfold components
  rw [if_neg noRoot, if_neg noDot, pathSegments, List.map_map,
    ← List.filterMap_eq_map]
  apply List.filterMap_congr
  intro segment member
  obtain ⟨notNil, notDot, notDots⟩ := passes.normal segment member
  rw [Component.ofSegment, if_neg notNil, if_neg notDot, if_neg notDots]
  rfl

/-- What an accepted text is: its platform reads it as its segments, and these
are safe. -/
theorem validateRelativePath_spec
    {platform : Platform} {value : String}
    (accepted : validateRelativePath platform value = .ok ()) :
    PassesTextTests value ∧ ¬platform.HasDrive value ∧
      ∀ segment ∈ pathSegments value, IsSafeSegment segment := by
  unfold validateRelativePath at accepted
  split at accepted
  · cases accepted
  · rename_i textPasses
    split at accepted
    · cases accepted
    · rename_i segmentsPass
      split at accepted
      · cases accepted
      · split at accepted
        · cases accepted
        · rename_i componentsPass
          push Not at textPasses segmentsPass componentsPass
          obtain ⟨_, _, _, noBackslash, _⟩ := textPasses
          have passes : PassesTextTests value := {
            noBackslash := noBackslash
            normal := segmentsPass }
          have noDrive : ¬platform.HasDrive value := by
            intro hasDrive
            obtain ⟨drive, rest, _, parsed⟩ :=
              Platform.parse_drive hasDrive
            have noneThere := componentsPass.1
            rw [parsed] at noneThere
            exact noneThere rfl
          refine ⟨passes, noDrive, ?_⟩
          intro segment member
          have parsed :=
            Platform.parse_of_no_drive noBackslash noDrive
          have acceptsAll := componentsPass.2
          rw [parsed, passes.components_eq] at acceptsAll
          have accepts :=
            acceptsAll (.normal segment) (List.mem_map_of_mem member)
          obtain ⟨characters, isSegment, rfl⟩ := List.mem_map.mp member
          refine ⟨passes.isNormalName isSegment, ?_, ?_⟩
          · rw [String.toList_ofList]
            exact fun inside =>
              noBackslash (mem_of_mem_segment isSegment inside)
          · intro character inside
            by_contra control
            apply accepts
            have anyControl :
                (String.ofList characters).toList.any isControl = true :=
              List.any_eq_true.mpr ⟨character, inside, by simpa using control⟩
            rw [acceptsComponent, anyControl]
            simp

/-- The names that both consumers push are the segments. -/
theorem normalNames_eq
    {platform : Platform} {value : String}
    (accepted : validateRelativePath platform value = .ok ()) :
    (platform.parse value).normalNames = pathSegments value := by
  obtain ⟨passes, noDrive, _⟩ := validateRelativePath_spec accepted
  rw [Platform.parse_of_no_drive passes.noBackslash noDrive,
    PlatformPath.normalNames, passes.components_eq]
  induction pathSegments value with
  | nil => rfl
  | cons first rest inductionHypothesis =>
      simp

theorem segments_name
    {value : String} (isName : IsNormalName value) :
    segments value.toList = [value.toList] :=
  segments_of_no_separator isName.2.2.2

theorem pathSegments_name
    {value : String} (isName : IsNormalName value) :
    pathSegments value = [value] := by
  rw [pathSegments, segments_name isName, List.map_singleton,
    String.ofList_toList]

/-- A plain name is accepted on Unix. -/
theorem accepts_name
    {value : String} (isName : IsNormalName value)
    (plain :
      ∀ character ∈ value.toList,
        character ≠ '\\' ∧ isControl character = false)
    (notHome : value.toList.head? ≠ some '~')
    (notVariable : value.toList.head? ≠ some '$')
    (short : value.utf8ByteSize ≤ maxPathBytes) :
    validateRelativePath .unix value = .ok () := by
  obtain ⟨notEmpty, notDot, notDots, noSeparator⟩ := isName
  have notNil : value.toList ≠ [] := by
    intro isNil
    exact notEmpty (String.toList_eq_nil_iff.mp isNil)
  have spelled {characters : List Char}
      (same : value.toList = characters) :
      value = String.ofList characters := by
    rw [← same, String.ofList_toList]
  have passes : PassesTextTests value := {
    noBackslash := fun inside => (plain _ inside).1 rfl
    normal := by
      intro segment member
      rw [segments_name ⟨notEmpty, notDot, notDots, noSeparator⟩,
        List.mem_singleton] at member
      subst member
      exact
        ⟨notNil, fun same => notDot (spelled same),
          fun same => notDots (spelled same)⟩ }
  have noNul : '\x00' ∉ value.toList := by
    intro inside
    exact absurd (plain _ inside).2 (by decide)
  have parsed : Platform.unix.parse value = ⟨none, [.normal value]⟩ := by
    have noDrive : ¬Platform.unix.HasDrive value := by
      rintro ⟨isWindows, _⟩
      cases isWindows
    rw [Platform.parse_of_no_drive passes.noBackslash noDrive,
      passes.components_eq,
      pathSegments_name ⟨notEmpty, notDot, notDots, noSeparator⟩]
    rfl
  have accepts : acceptsComponent (.normal value) = true := by
    have noControl : value.toList.any isControl = false := by
      rw [List.any_eq_false]
      intro character inside
      rw [(plain character inside).2]
      exact Bool.false_ne_true
    simp [acceptsComponent, notDot, notDots, noControl]
  have noSegment :
      ¬∃ segment ∈ segments value.toList,
        segment = [] ∨ segment = ['.'] ∨ segment = ['.', '.'] := by
    rintro ⟨segment, member, isRelative⟩
    have normal := passes.normal segment member
    tauto
  rw [validateRelativePath, if_neg, if_neg noSegment, parsed, if_neg,
    if_neg]
  · simp [accepts]
  · simp [PlatformPath.isAbsolute, PlatformPath.hasRoot,
      PlatformPath.componentCount]
  · rintro (isEmpty | isLong | nul | backslash | home | dollar)
    · exact notEmpty isEmpty
    · omega
    · exact noNul nul
    · exact passes.noBackslash backslash
    · exact notHome home
    · exact notVariable dollar

/-! ## What the consumers build -/

theorem append_nil (base : PlatformPath) : base.append [] = base := by
  simp [PlatformPath.append]

theorem append_append
    (base : PlatformPath) (first second : List String) :
    (base.append first).append second = base.append (first ++ second) := by
  simp [PlatformPath.append]

theorem length_append (base : PlatformPath) (names : List String) :
    (base.append names).body.length = base.body.length + names.length := by
  simp [PlatformPath.append]

theorem append_injective
    {base : PlatformPath} {first second : List String}
    (same : base.append first = base.append second) :
    first = second := by
  have bodies := congrArg PlatformPath.body same
  have mapped := List.append_cancel_left bodies
  apply (List.map_injective_iff.mpr _) mapped
  intro left right sameComponent
  exact Component.normal.inj sameComponent

/-- Names without drive prefixes are appended. -/
theorem foldl_pushName
    {platform : Platform} {names : List String}
    (safe : ∀ name ∈ names, IsSafeSegment name)
    (noDrive : ∀ name ∈ names, ¬platform.HasDrive name)
    (root : PlatformPath) :
    names.foldl (PlatformPath.pushName platform) root =
      root.append names := by
  induction names generalizing root with
  | nil =>
      exact (append_nil root).symm
  | cons first rest inductionHypothesis =>
      have firstSafe := safe first List.mem_cons_self
      rw [List.foldl_cons,
        PlatformPath.pushName_normal firstSafe.normal
          firstSafe.noBackslash (noDrive first List.mem_cons_self),
        inductionHypothesis
          (fun name member => safe name (List.mem_cons_of_mem _ member))
          (fun name member => noDrive name (List.mem_cons_of_mem _ member)),
        append_append]
      rfl

theorem getElem_pushedPaths
    {platform : Platform} {names : List String}
    (safe : ∀ name ∈ names, IsSafeSegment name)
    (noDrive : ∀ name ∈ names, ¬platform.HasDrive name)
    (root : PlatformPath) (index : Nat)
    (isIndex : index < (pushedPaths platform root names).length) :
    (pushedPaths platform root names)[index] =
      root.append (names.take (index + 1)) := by
  induction names generalizing root index with
  | nil =>
      exact absurd isIndex (Nat.not_lt_zero index)
  | cons first rest inductionHypothesis =>
      have firstSafe := safe first List.mem_cons_self
      have pushed :=
        PlatformPath.pushName_normal firstSafe.normal
          firstSafe.noBackslash (noDrive first List.mem_cons_self) root
      cases index with
      | zero =>
          exact pushed
      | succ index =>
          have inRest :=
            inductionHypothesis
              (fun name member => safe name (List.mem_cons_of_mem _ member))
              (fun name member =>
                noDrive name (List.mem_cons_of_mem _ member))
              (root.pushName platform first) index
              (Nat.lt_of_succ_lt_succ isIndex)
          rw [List.take_succ_cons]
          refine inRest.trans ?_
          rw [pushed, append_append]
          rfl

/-- Every push makes the body longer by one component at the most. -/
theorem length_foldl_pushName_le
    {platform : Platform} {names : List String}
    (safe : ∀ name ∈ names, IsSafeSegment name) (root : PlatformPath) :
    (names.foldl (PlatformPath.pushName platform) root).body.length ≤
      root.body.length + names.length := by
  induction names generalizing root with
  | nil =>
      exact Nat.le_refl _
  | cons first rest inductionHypothesis =>
      have firstSafe := safe first List.mem_cons_self
      have later :=
        inductionHypothesis
          (fun name member => safe name (List.mem_cons_of_mem _ member))
          (root.pushName platform first)
      have pushed :
          (root.pushName platform first).body.length ≤
            root.body.length + 1 := by
        by_cases hasDrive : platform.HasDrive first
        · have single :=
            PlatformPath.pushName_drive hasDrive
              firstSafe.normal.2.2.2 firstSafe.noBackslash root
          omega
        · rw [PlatformPath.pushName_normal firstSafe.normal
            firstSafe.noBackslash hasDrive, length_append]
          exact Nat.le_refl _
      rw [List.foldl_cons, List.length_cons]
      omega

/-- A drive prefix behind the first name loses at least one component. -/
theorem foldl_pushName_drive
    {platform : Platform} {before after : List String} {name : String}
    (safe : ∀ other ∈ before ++ name :: after, IsSafeSegment other)
    (notFirst : before ≠ []) (hasDrive : platform.HasDrive name)
    (root : PlatformPath) :
    ((before ++ name :: after).foldl
        (PlatformPath.pushName platform) root).body.length <
      root.body.length + (before ++ name :: after).length := by
  have nameSafe : IsSafeSegment name := safe name (by simp)
  have afterSafe : ∀ other ∈ after, IsSafeSegment other := by
    intro other member
    exact safe other (by simp [member])
  rw [List.foldl_append, List.foldl_cons]
  have restarted :=
    PlatformPath.pushName_drive hasDrive nameSafe.normal.2.2.2
      nameSafe.noBackslash
      (before.foldl (PlatformPath.pushName platform) root)
  have bounded :=
    @length_foldl_pushName_le platform _ afterSafe
      ((before.foldl (PlatformPath.pushName platform) root).pushName
        platform name)
  have positive := List.length_pos_of_ne_nil notFirst
  rw [List.length_append, List.length_cons]
  omega

theorem pathSegments_injective : Function.Injective pathSegments := by
  intro left right same
  apply String.toList_injective
  apply segments_injective
  apply (List.map_injective_iff.mpr _) same
  intro first second sameText
  rw [← String.toList_ofList (l := first), sameText,
    String.toList_ofList]

theorem head_segment_isPrefix
    {text first : List Char} (isFirst : (segments text).head? = some first) :
    first <+: text := by
  conv_rhs => rw [← joinSegments_segments text]
  cases split : segments text with
  | nil => exact absurd split (segments_ne_nil text)
  | cons head others =>
      rw [split] at isFirst
      cases isFirst
      cases others with
      | nil => exact List.prefix_rfl
      | cons second later => exact List.prefix_append _ _

theorem splitDrive_isSome_of_prefix
    {first text : List Char} (isPrefix : first <+: text)
    (isDrive : (splitDrive first).isSome = true) :
    (splitDrive text).isSome = true := by
  obtain ⟨behind, rfl⟩ := isPrefix
  cases first with
  | nil => cases isDrive
  | cons letter rest =>
      cases rest with
      | nil => cases isDrive
      | cons colon tail =>
          rw [splitDrive] at isDrive
          rw [List.cons_append, List.cons_append, splitDrive]
          split at isDrive
          · rename_i letters
            rw [if_pos letters]
            rfl
          · cases isDrive

/-- If the first segment had a drive prefix, the text itself would have it. -/
theorem first_segment_no_drive
    {platform : Platform} {value : String}
    (noDrive : ¬platform.HasDrive value)
    {first : String} (isFirst : (pathSegments value).head? = some first) :
    ¬platform.HasDrive first := by
  rintro ⟨isWindows, isDrive⟩
  rw [pathSegments, List.head?_map] at isFirst
  obtain ⟨characters, isHead, rfl⟩ := Option.map_eq_some_iff.mp isFirst
  rw [String.toList_ofList] at isDrive
  exact
    noDrive
      ⟨isWindows,
        splitDrive_isSome_of_prefix (head_segment_isPrefix isHead) isDrive⟩

theorem safeChild_eq
    {platform : Platform} {value : String}
    (accepted : validateRelativePath platform value = .ok ())
    (root : PlatformPath) :
    safeChild platform root value =
      .ok
        ((pathSegments value).foldl (PlatformPath.pushName platform)
          root) := by
  rw [safeChild, accepted, normalNames_eq accepted]

/-- Without drive prefixes both consumers stay below the root. -/
theorem staysBelow_of_noDrive
    {platform : Platform} {value : String}
    (accepted : validateRelativePath platform value = .ok ())
    (noDrive : NoDriveSegment platform value) (root : PlatformPath) :
    StaysBelow platform root value := by
  obtain ⟨_, _, safe⟩ := validateRelativePath_spec accepted
  refine ⟨?_, ?_⟩
  · rw [safeChild_eq accepted, foldl_pushName safe noDrive]
  · refine ⟨_, ?_, getElem_pushedPaths safe noDrive root⟩
    rw [createdPaths, accepted, normalNames_eq accepted]

/-- A drive prefix in a later segment takes the child out of the root. -/
theorem noDrive_of_child
    {platform : Platform} {value : String} {root : PlatformPath}
    (accepted : validateRelativePath platform value = .ok ())
    (child :
      safeChild platform root value =
        .ok (root.append (pathSegments value))) :
    NoDriveSegment platform value := by
  obtain ⟨_, noDrive, safe⟩ := validateRelativePath_spec accepted
  intro segment member hasDrive
  obtain ⟨before, after, split⟩ := List.append_of_mem member
  have notFirst : before ≠ [] := by
    rintro rfl
    refine first_segment_no_drive noDrive ?_ hasDrive
    rw [split]
    rfl
  rw [safeChild_eq accepted] at child
  rw [split] at safe
  have shorter :=
    foldl_pushName_drive safe notFirst hasDrive root
  have lengths :=
    congrArg (fun path => path.body.length) (Except.ok.inj child)
  simp only [length_append] at lengths
  rw [split] at lengths
  omega

/-- The segments of an accepted path are safe; it stays below the root exactly
when none of them begins with a drive prefix, and then no other such path has
the same child. -/
theorem relative_path_stays_below_exactly
    {platform : Platform} {value : String}
    (accepted : validateRelativePath platform value = .ok ())
    (root : PlatformPath) :
    (∀ segment ∈ pathSegments value, IsSafeSegment segment) ∧
      (StaysBelow platform root value ↔ NoDriveSegment platform value) ∧
      ∀ other, validateRelativePath platform other = .ok () →
        NoDriveSegment platform value → NoDriveSegment platform other →
          safeChild platform root value = safeChild platform root other →
            value = other := by
  refine ⟨(validateRelativePath_spec accepted).2.2, ⟨?_, ?_⟩, ?_⟩
  · exact fun below => noDrive_of_child accepted below.child
  · exact fun noDrive => staysBelow_of_noDrive accepted noDrive root
  · intro other otherAccepted noDrive otherNoDrive same
    rw [(staysBelow_of_noDrive accepted noDrive root).child,
      (staysBelow_of_noDrive otherAccepted otherNoDrive root).child]
      at same
    exact
      pathSegments_injective (append_injective (Except.ok.inj same))

/-- On Windows `a/C:evil` is accepted and leaves the root. -/
theorem drive_segment_escapes :
    validateRelativePath .windows "a/C:evil" = .ok () ∧
      safeChild .windows (Platform.windows.parse "D:\\recv") "a/C:evil" =
        .ok ⟨some "C:", [.normal "evil"]⟩ ∧
      ¬StaysBelow .windows (Platform.windows.parse "D:\\recv")
        "a/C:evil" := by
  have leaves :
      safeChild .windows (Platform.windows.parse "D:\\recv") "a/C:evil" =
        .ok ⟨some "C:", [.normal "evil"]⟩ := by
    decide +kernel
  refine ⟨by decide +kernel, leaves, ?_⟩
  intro below
  have child := below.child
  rw [leaves] at child
  exact absurd child (by decide +kernel)

theorem relative_path_stays_below_nested :
    StaysBelow .windows (Platform.windows.parse "D:\\recv")
      "nested/file.txt" := by
  have accepted :
      validateRelativePath .windows "nested/file.txt" = .ok () := by
    decide +kernel
  have noDrive : NoDriveSegment .windows "nested/file.txt" := by
    decide +kernel
  exact
    (relative_path_stays_below_exactly accepted _).2.1.mpr noDrive

end Quiczilla
