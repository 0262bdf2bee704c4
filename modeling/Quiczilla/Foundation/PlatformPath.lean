import Quiczilla.Foundation.UnixPath

/-!
# Paths on two platforms

`std::path` on Windows knows a prefix, of which the drive letter is one form,
and a second separator.  A path is its prefix together with its body, the list
of components behind it; pushing a path that has a prefix replaces the base.

Only prefixes that are a drive letter are parsed.  The others begin with two
separators, and whoever uses this module has to keep such texts away from it.
-/

namespace Quiczilla.Foundation

inductive Platform where
  | unix
  | windows
  deriving DecidableEq, Repr

structure PlatformPath where
  drive : Option String
  body : UnixPath
  deriving DecidableEq, Repr

/-- On Windows a backslash separates as a slash does. -/
def Platform.slashed (platform : Platform) (text : List Char) :
    List Char :=
  match platform with
  | .unix => text
  | .windows =>
      text.map fun character =>
        if character = '\\' then '/' else character

/-- A drive letter with its colon, and the text behind it. -/
def splitDrive : List Char → Option (String × List Char)
  | letter :: colon :: rest =>
      if letter.isAlpha ∧ colon = ':' then
        some (String.ofList [letter, colon], rest)
      else none
  | _ => none

/-- `Path::new`, read as components. -/
def Platform.parse (platform : Platform) (text : String) : PlatformPath :=
  match platform, splitDrive text.toList with
  | .windows, some (drive, rest) =>
      ⟨some drive, components (String.ofList (platform.slashed rest))⟩
  | _, _ =>
      ⟨none, components (String.ofList (platform.slashed text.toList))⟩

namespace PlatformPath

/-- `Path::has_root`. -/
def hasRoot (path : PlatformPath) : Bool :=
  path.body.head? = some .rootDir

/-- `Path::is_absolute`. -/
def isAbsolute (platform : Platform) (path : PlatformPath) : Bool :=
  path.hasRoot && (platform = .unix || path.drive.isSome)

/-- The number of `Path::components`. -/
def componentCount (path : PlatformPath) : Nat :=
  path.drive.toList.length + path.body.length

/-- The texts of the `Component::Normal` components. -/
def normalNames (path : PlatformPath) : List String :=
  path.body.filterMap fun
    | .normal name => some name
    | _ => none

/-- `PathBuf::push`. -/
def push (platform : Platform) (base path : PlatformPath) :
    PlatformPath :=
  if path.isAbsolute platform || path.drive.isSome then path
  else { base with body := join base.body path.body }

/-- `PathBuf::push` of a text. -/
def pushName (platform : Platform) (base : PlatformPath) (name : String) :
    PlatformPath :=
  base.push platform (platform.parse name)

/-- The base followed by these names. -/
def append (base : PlatformPath) (names : List String) : PlatformPath :=
  { base with body := base.body ++ names.map .normal }

end PlatformPath

/-! ## Segments spell the text -/

/-- The segments with separators between them. -/
def joinSegments : List (List Char) → List Char
  | [] => []
  | [segment] => segment
  | segment :: rest => segment ++ '/' :: joinSegments rest

theorem joinSegments_segments (text : List Char) :
    joinSegments (segments text) = text := by
  induction text with
  | nil => rfl
  | cons character rest inductionHypothesis =>
      rw [segments]
      cases split : segments rest with
      | nil => exact absurd split (segments_ne_nil rest)
      | cons first others =>
          rw [split] at inductionHypothesis
          by_cases isSeparator : character = '/'
          · rw [if_pos isSeparator, joinSegments, inductionHypothesis,
              isSeparator]
            · rfl
            · simp
          · rw [if_neg isSeparator]
            cases others with
            | nil =>
                rw [joinSegments] at inductionHypothesis ⊢
                rw [inductionHypothesis]
            | cons second later =>
                rw [joinSegments] at inductionHypothesis ⊢
                · rw [List.cons_append, inductionHypothesis]
                · simp
                · simp

theorem segments_injective : Function.Injective segments := by
  intro left right same
  rw [← joinSegments_segments left, same, joinSegments_segments]

theorem segments_append
    {segment : List Char} (noSeparator : '/' ∉ segment)
    (rest : List Char) :
    segments (segment ++ '/' :: rest) = segment :: segments rest := by
  rw [segments_append_separator, segments_of_no_separator noSeparator]
  rfl

theorem segments_joinSegments
    {pieces : List (List Char)} (notNil : pieces ≠ [])
    (noSeparator : ∀ piece ∈ pieces, '/' ∉ piece) :
    segments (joinSegments pieces) = pieces := by
  induction pieces with
  | nil => exact absurd rfl notNil
  | cons first rest inductionHypothesis =>
      have firstFree := noSeparator first List.mem_cons_self
      cases rest with
      | nil => exact segments_of_no_separator firstFree
      | cons second others =>
          have restJoined :=
            inductionHypothesis (List.cons_ne_nil _ _)
              (fun piece member =>
                noSeparator piece (List.mem_cons_of_mem _ member))
          rw [joinSegments, segments_append firstFree, restJoined]
          · simp

theorem mem_joinSegments
    {pieces : List (List Char)} {character : Char}
    (member : character ∈ joinSegments pieces) :
    character = '/' ∨ ∃ piece ∈ pieces, character ∈ piece := by
  induction pieces with
  | nil => exact absurd member List.not_mem_nil
  | cons first rest inductionHypothesis =>
      cases rest with
      | nil => exact .inr ⟨first, List.mem_cons_self, member⟩
      | cons second others =>
          rw [joinSegments] at member
          · rcases List.mem_append.mp member with inFirst | behind
            · exact .inr ⟨first, List.mem_cons_self, inFirst⟩
            · rcases List.mem_cons.mp behind with isSeparator | later
              · exact .inl isSeparator
              · rcases inductionHypothesis later with same | inRest
                · exact .inl same
                · obtain ⟨piece, isPiece, inPiece⟩ := inRest
                  exact
                    .inr ⟨piece, List.mem_cons_of_mem _ isPiece, inPiece⟩
          · simp

/-! ## Texts without a backslash -/

theorem Platform.slashed_eq
    (platform : Platform) {text : List Char} (plain : '\\' ∉ text) :
    platform.slashed text = text := by
  cases platform with
  | unix => rfl
  | windows =>
      change text.map _ = text
      conv_rhs => rw [← List.map_id text]
      apply List.map_congr_left
      intro character member
      have different : character ≠ '\\' := by
        rintro rfl
        exact plain member
      exact if_neg different

/-- On this platform the text begins with a drive prefix. -/
def Platform.HasDrive (platform : Platform) (text : String) : Prop :=
  platform = .windows ∧ (splitDrive text.toList).isSome = true

instance (platform : Platform) (text : String) :
    Decidable (platform.HasDrive text) :=
  inferInstanceAs (Decidable (_ ∧ _))

theorem Platform.parse_of_no_drive
    {platform : Platform} {text : String} (plain : '\\' ∉ text.toList)
    (noDrive : ¬platform.HasDrive text) :
    platform.parse text = ⟨none, components text⟩ := by
  have isNone : platform = .windows → splitDrive text.toList = none := by
    intro isWindows
    by_contra isSome
    exact noDrive ⟨isWindows, Option.isSome_iff_ne_none.mpr isSome⟩
  have spelled :
      String.ofList (platform.slashed text.toList) = text := by
    rw [Platform.slashed_eq platform plain, String.ofList_toList]
  cases platform with
  | unix =>
      rw [Platform.parse.eq_def]
      simp only [spelled]
  | windows =>
      rw [Platform.parse.eq_def, isNone rfl]
      simp only [spelled]

theorem Platform.parse_drive
    {platform : Platform} {text : String}
    (hasDrive : platform.HasDrive text) :
    ∃ drive rest, splitDrive text.toList = some (drive, rest) ∧
      platform.parse text =
        ⟨some drive,
          components (String.ofList (platform.slashed rest))⟩ := by
  obtain ⟨rfl, isSome⟩ := hasDrive
  obtain ⟨⟨drive, rest⟩, isDrive⟩ := Option.isSome_iff_exists.mp isSome
  refine ⟨drive, rest, isDrive, ?_⟩
  rw [Platform.parse.eq_def, isDrive]

namespace PlatformPath

/-- Pushing a normal name that no platform reads in another way appends it. -/
theorem pushName_normal
    {platform : Platform} {name : String} (normal : IsNormalName name)
    (plain : '\\' ∉ name.toList) (noDrive : ¬platform.HasDrive name)
    (base : PlatformPath) :
    base.pushName platform name = base.append [name] := by
  rw [pushName, Platform.parse_of_no_drive plain noDrive,
    components_of_normal normal, push]
  have relative :
      (isAbsolute platform ⟨none, [.normal name]⟩ ||
        (none : Option String).isSome) = false := by
    simp [isAbsolute, hasRoot]
  rw [relative, append]
  simp only [Bool.false_eq_true, if_false]
  rw [← components_of_normal normal, join_normal base.body normal]
  rfl

/-- Pushing a name with a drive prefix forgets the base: one component at the
most is left of the body. -/
theorem pushName_drive
    {platform : Platform} {name : String} (hasDrive : platform.HasDrive name)
    (noSeparator : '/' ∉ name.toList) (plain : '\\' ∉ name.toList)
    (base : PlatformPath) :
    (base.pushName platform name).body.length ≤ 1 := by
  obtain ⟨drive, rest, isDrive, parsed⟩ :=
    Platform.parse_drive hasDrive
  have inRest : ∀ character ∈ rest, character ∈ name.toList := by
    intro character member
    cases spelled : name.toList with
    | nil =>
        rw [spelled] at isDrive
        cases isDrive
    | cons letter behind =>
        cases behind with
        | nil =>
            rw [spelled] at isDrive
            cases isDrive
        | cons colon tail =>
            rw [spelled, splitDrive] at isDrive
            split at isDrive
            · cases isDrive
              exact
                List.mem_cons_of_mem _ (List.mem_cons_of_mem _ member)
            · cases isDrive
  have restFree : '/' ∉ rest := fun member => noSeparator (inRest _ member)
  have restPlain : '\\' ∉ rest := fun member => plain (inRest _ member)
  rw [pushName, parsed, push]
  have replaces :
      (isAbsolute platform
          ⟨some drive,
            components (String.ofList (platform.slashed rest))⟩ ||
        (some drive).isSome) = true := by
    simp
  rw [if_pos replaces, Platform.slashed_eq platform restPlain]
  have single : segments rest = [rest] :=
    segments_of_no_separator restFree
  have noRoot : rest.head? ≠ some '/' :=
    fun leading => restFree (List.mem_of_mem_head? leading)
  unfold components
  rw [String.toList_ofList, if_neg noRoot, single]
  split
  · rename_i isDot
    have spelled : rest = ['.'] := by simpa using isDot
    rw [spelled]
    simp [Component.ofSegment]
  · exact List.length_filterMap_le Component.ofSegment [rest]

end PlatformPath

end Quiczilla.Foundation
