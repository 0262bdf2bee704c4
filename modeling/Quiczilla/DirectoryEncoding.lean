import Mathlib.Data.List.Induction
import Quiczilla.DirectorySend
import Quiczilla.Foundation.Runs

/-!
# What a sent directory decodes to

The listing of a source is its directories and regular files, a directory
before what is below it.  The frames that the walk has written, followed by
the listing of what is still on its stack, are the listing of the source with
every path as it is spelled on the wire.
-/

namespace Quiczilla

open Foundation

inductive ListedItem where
  | directory
  | file (content : List UInt8)
  deriving DecidableEq, Repr

abbrev Listing := List (List String × ListedItem)

/-- The listing with these names in front of every path. -/
def Listing.below (parents : List String) (listing : Listing) : Listing :=
  listing.map fun entry => (parents ++ entry.1, entry.2)

namespace SourceEntries

/-- The directories and regular files with UTF-8 names. -/
def listing : SourceEntries → Listing
  | .done => []
  | .file name _ content rest =>
      match name.text with
      | none => rest.listing
      | some text => ([text], .file content) :: rest.listing
  | .directory name below rest =>
      match name.text with
      | none => rest.listing
      | some text =>
          ([text], .directory) ::
            (Listing.below [text] below.listing ++ rest.listing)
  | .symlink _ rest => rest.listing
  | .special _ rest => rest.listing

/-- The entry at a path. -/
inductive Holds : SourceEntries → List String → ListedItem → Prop
  | file {name size content rest text} :
      name.text = some text →
      Holds (.file name size content rest) [text] (.file content)
  | directory {name below rest text} :
      name.text = some text →
      Holds (.directory name below rest) [text] .directory
  | inside {name below rest text path item} :
      name.text = some text → Holds below path item →
      Holds (.directory name below rest) (text :: path) item
  | behindFile {name size content rest path item} :
      Holds rest path item →
      Holds (.file name size content rest) path item
  | behindDirectory {name below rest path item} :
      Holds rest path item →
      Holds (.directory name below rest) path item
  | behindSymlink {name rest path item} :
      Holds rest path item → Holds (.symlink name rest) path item
  | behindSpecial {name rest path item} :
      Holds rest path item → Holds (.special name rest) path item

/-- The names of the entries of the directory itself. -/
def names : SourceEntries → List (Option String)
  | .done => []
  | .file name _ _ rest => name.text :: rest.names
  | .directory name _ rest => name.text :: rest.names
  | .symlink name rest => name.text :: rest.names
  | .special name rest => name.text :: rest.names

/-- No two entries of a directory have one name. -/
def Distinct : SourceEntries → Prop
  | .done => True
  | .file name _ _ rest =>
      (name.text = none ∨ name.text ∉ rest.names) ∧ rest.Distinct
  | .directory name below rest =>
      (name.text = none ∨ name.text ∉ rest.names) ∧
        below.Distinct ∧ rest.Distinct
  | .symlink name rest =>
      (name.text = none ∨ name.text ∉ rest.names) ∧ rest.Distinct
  | .special name rest =>
      (name.text = none ∨ name.text ∉ rest.names) ∧ rest.Distinct

/-- The files are read as their metadata describes them, and a length is a
64-bit number. -/
def Unchanged : SourceEntries → Prop
  | .done => True
  | .file _ size content rest =>
      size = content.length ∧ size < 2 ^ 64 ∧ rest.Unchanged
  | .directory _ below rest => below.Unchanged ∧ rest.Unchanged
  | .symlink _ rest => rest.Unchanged
  | .special _ rest => rest.Unchanged

end SourceEntries

/-- A source directory that does not change while it is sent. -/
structure SourceTree where
  name : EntryName
  entries : SourceEntries
  distinct : entries.Distinct
  unchanged : entries.Unchanged

def SourceTree.listing (tree : SourceTree) : Listing :=
  tree.entries.listing

/-- What a listing makes of the totals; the root counts as a directory. -/
def Listing.stats (listing : Listing) : DirectoryTransferStats where
  files := (listing.filter fun entry => entry.2 ≠ .directory).length
  directories := 1 + (listing.filter fun entry => entry.2 = .directory).length
  bytes :=
    (listing.map fun entry =>
      match entry.2 with
      | .directory => 0
      | .file content => content.length).sum
  packs := 0

/-- A directory is listed before what is below it. -/
def Listing.ParentsFirst (listing : Listing) : Prop :=
  ∀ before path item after, listing = before ++ (path, item) :: after →
    ∀ parent name later, path = parent ++ name :: later → parent ≠ [] →
      (parent, .directory) ∈ before

/-- The entry that a frame describes. -/
def DirectoryFrame.entry? : DirectoryFrame → Option (List String × ListedItem)
  | .directory relative => some (pathSegments relative, .directory)
  | .file relative content _ _ =>
      some (pathSegments relative, .file content)
  | _ => none

/-- What the frames describe, in their order. -/
def describedBy (frames : List DirectoryFrame) : Listing :=
  frames.filterMap DirectoryFrame.entry?

/-- The checksum byte of a file frame, and its digest. -/
def DirectoryFrame.Digested (checksum : Bool) : DirectoryFrame → Prop
  | .file _ content flag digest =>
      flag = (if checksum then 1 else 0) ∧
        digest = if checksum then sha256 content else []
  | _ => True

/-- The bytes decode to the source: its own name as the root, one frame for
each directory and each regular file, with the content and the digest, every
directory before what is below it, and totals that count them. -/
structure SourceTree.EncodedBy
    (tree : SourceTree) (checksum : Bool) (written : List UInt8)
    (rootName : String) (frames : List DirectoryFrame) : Prop where
  decodes : readStream written = .ok (rootName, frames, [])
  root : tree.name.text = some rootName
  entries :
    ∀ path item,
      (path, item) ∈ describedBy frames ↔ tree.entries.Holds path item
  once : ((describedBy frames).map Prod.fst).Nodup
  parentsFirst : (describedBy frames).ParentsFirst
  digests : ∀ frame ∈ frames, frame.Digested checksum
  files : (statsOf frames).files = (describedBy frames).stats.files
  directories :
    (statsOf frames).directories = (describedBy frames).stats.directories
  bytes : (statsOf frames).bytes = (describedBy frames).stats.bytes

/-- No name that is spelled on the wire has a backslash. -/
structure SourceTree.NoBackslash (tree : SourceTree) : Prop where
  root : ∀ text, tree.name.text = some text → '\\' ∉ text.toList
  entries :
    ∀ path item, tree.entries.Holds path item →
      ∀ name ∈ path, '\\' ∉ name.toList

/-! ## The listing -/

theorem mem_below
    {parents : List String} {listing : Listing} {path : List String}
    {item : ListedItem} :
    (path, item) ∈ listing.below parents ↔
      ∃ rest, path = parents ++ rest ∧ (rest, item) ∈ listing := by
  rw [Listing.below, List.mem_map]
  constructor
  · rintro ⟨⟨rest, _⟩, member, same⟩
    cases same
    exact ⟨rest, rfl, member⟩
  · rintro ⟨rest, rfl, member⟩
    exact ⟨(rest, item), member, rfl⟩

/-- The listing holds the entries and nothing else. -/
theorem mem_listing_iff
    {entries : SourceEntries} {path : List String} {item : ListedItem} :
    (path, item) ∈ entries.listing ↔ entries.Holds path item := by
  induction entries generalizing path with
  | done =>
      refine ⟨fun member => absurd member List.not_mem_nil, ?_⟩
      intro holds
      cases holds
  | file name size content rest inductionHypothesis =>
      rw [SourceEntries.listing]
      constructor
      · intro member
        split at member
        · exact .behindFile (inductionHypothesis.mp member)
        · rename_i text isText
          rcases List.mem_cons.mp member with same | later
          · cases same
            exact .file isText
          · exact .behindFile (inductionHypothesis.mp later)
      · intro holds
        cases holds with
        | file isText =>
            rw [isText]
            exact List.mem_cons_self
        | behindFile behind =>
            have later := inductionHypothesis.mpr behind
            split
            · exact later
            · exact List.mem_cons_of_mem _ later
  | directory name below rest belowHypothesis restHypothesis =>
      rw [SourceEntries.listing]
      constructor
      · intro member
        split at member
        · exact .behindDirectory (restHypothesis.mp member)
        · rename_i text isText
          rcases List.mem_cons.mp member with same | later
          · cases same
            exact .directory isText
          · rcases List.mem_append.mp later with inside | behind
            · obtain ⟨inner, rfl, inBelow⟩ := mem_below.mp inside
              exact .inside isText (belowHypothesis.mp inBelow)
            · exact .behindDirectory (restHypothesis.mp behind)
      · intro holds
        cases holds with
        | directory isText =>
            rw [isText]
            exact List.mem_cons_self
        | inside isText holdsBelow =>
            rw [isText]
            refine
              List.mem_cons_of_mem _ (List.mem_append_left _ ?_)
            exact mem_below.mpr ⟨_, rfl, belowHypothesis.mpr holdsBelow⟩
        | behindDirectory behind =>
            have later := restHypothesis.mpr behind
            split
            · exact later
            · exact
                List.mem_cons_of_mem _ (List.mem_append_right _ later)
  | symlink name rest inductionHypothesis =>
      refine inductionHypothesis.trans ⟨.behindSymlink, ?_⟩
      intro holds
      cases holds with
      | behindSymlink behind => exact behind
  | special name rest inductionHypothesis =>
      refine inductionHypothesis.trans ⟨.behindSpecial, ?_⟩
      intro holds
      cases holds with
      | behindSpecial behind => exact behind

theorem holds_head
    {entries : SourceEntries} {path : List String} {item : ListedItem}
    (holds : entries.Holds path item) :
    ∃ first rest, path = first :: rest ∧ some first ∈ entries.names := by
  induction holds with
  | file isText =>
      exact ⟨_, [], rfl, by rw [SourceEntries.names, isText]; simp⟩
  | directory isText =>
      exact ⟨_, [], rfl, by rw [SourceEntries.names, isText]; simp⟩
  | inside isText _ _ =>
      exact ⟨_, _, rfl, by rw [SourceEntries.names, isText]; simp⟩
  | behindFile _ inductionHypothesis =>
      obtain ⟨first, rest, same, member⟩ := inductionHypothesis
      exact ⟨first, rest, same, List.mem_cons_of_mem _ member⟩
  | behindDirectory _ inductionHypothesis =>
      obtain ⟨first, rest, same, member⟩ := inductionHypothesis
      exact ⟨first, rest, same, List.mem_cons_of_mem _ member⟩
  | behindSymlink _ inductionHypothesis =>
      obtain ⟨first, rest, same, member⟩ := inductionHypothesis
      exact ⟨first, rest, same, List.mem_cons_of_mem _ member⟩
  | behindSpecial _ inductionHypothesis =>
      obtain ⟨first, rest, same, member⟩ := inductionHypothesis
      exact ⟨first, rest, same, List.mem_cons_of_mem _ member⟩

theorem normal_of_holds
    {entries : SourceEntries} {path : List String} {item : ListedItem}
    (holds : entries.Holds path item) :
    path ≠ [] ∧ ∀ name ∈ path, IsNormalName name := by
  have single {entry : EntryName} {text : String}
      (isText : entry.text = some text) :
      ∀ name ∈ [text], IsNormalName name := by
    intro name member
    rw [List.mem_singleton.mp member]
    exact entry.legal text isText
  induction holds with
  | file isText => exact ⟨List.cons_ne_nil _ _, single isText⟩
  | directory isText => exact ⟨List.cons_ne_nil _ _, single isText⟩
  | inside isText _ inductionHypothesis =>
      refine ⟨List.cons_ne_nil _ _, ?_⟩
      intro name member
      rcases List.mem_cons.mp member with rfl | later
      · exact single isText _ List.mem_cons_self
      · exact inductionHypothesis.2 name later
  | behindFile _ inductionHypothesis => exact inductionHypothesis
  | behindDirectory _ inductionHypothesis => exact inductionHypothesis
  | behindSymlink _ inductionHypothesis => exact inductionHypothesis
  | behindSpecial _ inductionHypothesis => exact inductionHypothesis

/-- A path of the listing starts with the name of an entry. -/
theorem listing_head
    {entries : SourceEntries} {path : List String}
    (member : path ∈ entries.listing.map Prod.fst) :
    ∃ first rest, path = first :: rest ∧ some first ∈ entries.names := by
  obtain ⟨⟨_, item⟩, isEntry, rfl⟩ := List.mem_map.mp member
  exact holds_head (mem_listing_iff.mp isEntry)

theorem fst_below (parents : List String) (listing : Listing) :
    (listing.below parents).map Prod.fst =
      (listing.map Prod.fst).map (parents ++ ·) := by
  simp [Listing.below]

/-- Every path is listed once. -/
theorem nodup_listing
    {entries : SourceEntries} (distinct : entries.Distinct) :
    (entries.listing.map Prod.fst).Nodup := by
  induction entries with
  | done => exact List.nodup_nil
  | file name size content rest inductionHypothesis =>
      obtain ⟨fresh, restDistinct⟩ := distinct
      have restNodup := inductionHypothesis restDistinct
      rw [SourceEntries.listing]
      split
      · exact restNodup
      · rename_i text isText
        rw [List.map_cons]
        refine List.nodup_cons.mpr ⟨?_, restNodup⟩
        intro again
        obtain ⟨first, later, same, member⟩ := listing_head again
        cases same
        rw [isText] at fresh
        exact (fresh.resolve_left (by simp)) member
  | directory name below rest belowHypothesis restHypothesis =>
      obtain ⟨fresh, belowDistinct, restDistinct⟩ := distinct
      have belowNodup := belowHypothesis belowDistinct
      have restNodup := restHypothesis restDistinct
      rw [SourceEntries.listing]
      split
      · exact restNodup
      · rename_i text isText
        rw [isText] at fresh
        have notBehind := fresh.resolve_left (by simp)
        rw [List.map_cons, List.map_append, fst_below]
        refine List.nodup_cons.mpr ⟨?_, ?_⟩
        · intro again
          rcases List.mem_append.mp again with inside | behind
          · obtain ⟨path, isBelow, same⟩ := List.mem_map.mp inside
            obtain ⟨first, later, rfl, _⟩ := listing_head isBelow
            cases same
          · obtain ⟨first, later, same, member⟩ := listing_head behind
            cases same
            exact notBehind member
        · refine List.nodup_append.mpr ⟨?_, restNodup, ?_⟩
          · exact
              belowNodup.map fun left right same =>
                List.append_cancel_left same
          · intro left isInside right isBehind same
            obtain ⟨path, _, rfl⟩ := List.mem_map.mp isInside
            obtain ⟨first, later, rfl, member⟩ := listing_head isBehind
            cases same
            exact notBehind member
  | symlink name rest inductionHypothesis =>
      exact inductionHypothesis distinct.2
  | special name rest inductionHypothesis =>
      exact inductionHypothesis distinct.2

theorem singleton_ne_below
    {text name : String} {parent later : List String}
    (notNil : parent ≠ []) : [text] ≠ parent ++ name :: later := by
  intro same
  have short := congrArg List.length same
  have positive := List.length_pos_of_ne_nil notNil
  simp at short
  omega

theorem parentsFirst_append
    {first second : Listing} (firstOrdered : first.ParentsFirst)
    (secondOrdered : second.ParentsFirst) :
    Listing.ParentsFirst (first ++ second) := by
  intro before path item after split parent name later isPath notNil
  rcases List.append_eq_append_iff.mp split with
    ⟨middle, isBefore, isSecond⟩ | ⟨middle, isFirst, isRest⟩
  · rw [isBefore]
    exact
      List.mem_append_right _
        (secondOrdered middle path item after isSecond parent name later
          isPath notNil)
  · cases middle with
    | nil =>
        have inSecond : second = [] ++ (path, item) :: after := isRest.symm
        exact
          absurd
            (secondOrdered [] path item after inSecond parent name later
              isPath notNil)
            List.not_mem_nil
    | cons head others =>
        have sameHead : (path, item) = head := (List.cons.inj isRest).1
        subst sameHead
        exact
          firstOrdered before path item others isFirst parent name later
            isPath notNil

/-- A directory in front of what lies below it. -/
theorem parentsFirst_below
    {listing : Listing} (ordered : listing.ParentsFirst) (text : String) :
    Listing.ParentsFirst (([text], .directory) :: listing.below [text]) := by
  intro before path item after split parent name later isPath notNil
  cases before with
  | nil =>
      have isHead : ([text], ListedItem.directory) = (path, item) :=
        (List.cons.inj split).1
      cases isHead
      exact absurd isPath (singleton_ne_below notNil)
  | cons head others =>
      obtain ⟨isHead, isTail⟩ := List.cons.inj split
      subst isHead
      obtain ⟨inner, behind, isListing, isOthers, isBehind⟩ :=
        List.map_eq_append_iff.mp isTail
      obtain ⟨entry, innerAfter, isEntry, sameEntry, _⟩ :=
        List.map_eq_cons_iff.mp isBehind
      obtain ⟨innerPath, innerItem⟩ := entry
      cases sameEntry
      rw [isEntry] at isListing
      cases parent with
      | nil => exact absurd rfl notNil
      | cons first rest =>
          obtain ⟨sameText, isInner⟩ := List.cons.inj isPath
          subst sameText
          by_cases atTop : rest = []
          · rw [atTop]
            exact List.mem_cons_self
          · have inInner :=
              ordered inner innerPath innerItem innerAfter isListing rest
                name later isInner atTop
            rw [← isOthers]
            exact
              List.mem_cons_of_mem _
                (mem_below.mpr ⟨rest, rfl, inInner⟩)

theorem parentsFirst_file (text : String) (content : List UInt8) :
    Listing.ParentsFirst [([text], .file content)] := by
  intro before path item after split parent name later isPath notNil
  cases before with
  | nil =>
      cases split
      exact absurd isPath (singleton_ne_below notNil)
  | cons head others =>
      have tooLong := congrArg List.length split
      simp at tooLong

theorem parentsFirst_listing (entries : SourceEntries) :
    entries.listing.ParentsFirst := by
  induction entries with
  | done =>
      intro before path item after split
      have tooLong := congrArg List.length split
      simp [SourceEntries.listing] at tooLong
  | file name size content rest inductionHypothesis =>
      rw [SourceEntries.listing]
      split
      · exact inductionHypothesis
      · rename_i text _
        exact
          parentsFirst_append (parentsFirst_file text content)
            inductionHypothesis
  | directory name below rest belowHypothesis restHypothesis =>
      rw [SourceEntries.listing]
      split
      · exact restHypothesis
      · rename_i text _
        exact
          parentsFirst_append (parentsFirst_below belowHypothesis text)
            restHypothesis
  | symlink name rest inductionHypothesis => exact inductionHypothesis
  | special name rest inductionHypothesis => exact inductionHypothesis

/-! ## Totals -/

theorem describedBy_append (frames : List DirectoryFrame)
    (frame : DirectoryFrame) :
    describedBy (frames ++ [frame]) =
      describedBy frames ++ frame.entry?.toList := by
  rw [describedBy, List.filterMap_append]
  cases described : frame.entry? <;>
    simp [describedBy, described]

/-- The counters of the receiver are the totals of the listing, modulo their
width. -/
theorem statsOf_eq (frames : List DirectoryFrame) :
    (statsOf frames).files = (describedBy frames).stats.files % 2 ^ 64 ∧
      (statsOf frames).directories =
          (describedBy frames).stats.directories % 2 ^ 64 ∧
        (statsOf frames).bytes =
          (describedBy frames).stats.bytes % 2 ^ 64 := by
  induction frames using List.reverseRecOn with
  | nil => exact ⟨rfl, rfl, rfl⟩
  | append_singleton frames frame inductionHypothesis =>
      obtain ⟨isFiles, isDirectories, isBytes⟩ := inductionHypothesis
      rw [statsOf_append, describedBy_append]
      cases frame with
      | packStart pack =>
          simpa [DirectoryTransferStats.count, DirectoryFrame.entry?] using
            ⟨isFiles, isDirectories, isBytes⟩
      | packEnd =>
          simpa [DirectoryTransferStats.count, DirectoryFrame.entry?] using
            ⟨isFiles, isDirectories, isBytes⟩
      | directory relative =>
          refine ⟨?_, ?_, ?_⟩
          · simpa [DirectoryTransferStats.count, DirectoryFrame.entry?,
              Listing.stats] using isFiles
          · simp only [DirectoryTransferStats.count, isDirectories,
              Nat.mod_add_mod]
            simp [DirectoryFrame.entry?, Listing.stats, Nat.add_assoc]
          · simpa [DirectoryTransferStats.count, DirectoryFrame.entry?,
              Listing.stats] using isBytes
      | file relative content flag digest =>
          refine ⟨?_, ?_, ?_⟩
          · simp only [DirectoryTransferStats.count, isFiles,
              Nat.mod_add_mod]
            simp [DirectoryFrame.entry?, Listing.stats]
          · simpa [DirectoryTransferStats.count, DirectoryFrame.entry?,
              Listing.stats] using isDirectories
          · simp only [DirectoryTransferStats.count, isBytes,
              Nat.mod_add_mod]
            simp [DirectoryFrame.entry?, Listing.stats]

/-! ## Paths on the wire -/

/-- The path as its frame spells it. -/
def wirePath (path : List String) : List String :=
  pathSegments
    (wireText (String.ofList (joinSegments (path.map String.toList))))

def Listing.wired (listing : Listing) : Listing :=
  listing.map fun entry => (wirePath entry.1, entry.2)

theorem noBackslash_wireText (value : String) :
    '\\' ∉ (wireText value).toList := by
  intro member
  rw [wireText, String.toList_ofList] at member
  obtain ⟨character, _, replaced⟩ := List.mem_map.mp member
  by_cases isBackslash : character = '\\'
  · rw [if_pos isBackslash] at replaced
    exact absurd replaced (by decide)
  · rw [if_neg isBackslash] at replaced
    exact isBackslash replaced

theorem wireText_eq
    {value : String} (plain : '\\' ∉ value.toList) :
    wireText value = value := by
  have kept :
      (value.toList.map fun character =>
          if character = '\\' then '/' else character) =
        value.toList := by
    conv_rhs => rw [← List.map_id value.toList]
    apply List.map_congr_left
    intro character member
    have different : character ≠ '\\' := by
      rintro rfl
      exact plain member
    exact if_neg different
  rw [wireText, kept, String.ofList_toList]

theorem noBackslash_wirePath
    {path : List String} {name : String} (member : name ∈ wirePath path) :
    '\\' ∉ name.toList := by
  obtain ⟨segment, isSegment, rfl⟩ := List.mem_map.mp member
  rw [String.toList_ofList]
  intro inside
  exact noBackslash_wireText _ (mem_of_mem_segment isSegment inside)

/-- A path without a backslash keeps its spelling. -/
theorem wirePath_eq
    {path : List String} (notNil : path ≠ [])
    (normal : ∀ name ∈ path, IsNormalName name)
    (plain : ∀ name ∈ path, '\\' ∉ name.toList) :
    wirePath path = path := by
  have piecesNotNil : path.map String.toList ≠ [] := by
    simpa using notNil
  have piecesFree : ∀ piece ∈ path.map String.toList, '/' ∉ piece := by
    intro piece member
    obtain ⟨name, isName, rfl⟩ := List.mem_map.mp member
    exact (normal name isName).2.2.2
  have joinedPlain :
      '\\' ∉
        (String.ofList (joinSegments (path.map String.toList))).toList := by
    rw [String.toList_ofList]
    intro member
    rcases mem_joinSegments member with isSeparator | inPiece
    · exact absurd isSeparator (by decide)
    · obtain ⟨piece, isPiece, inside⟩ := inPiece
      obtain ⟨name, isName, rfl⟩ := List.mem_map.mp isPiece
      exact plain name isName inside
  rw [wirePath, wireText_eq joinedPlain, pathSegments,
    String.toList_ofList, segments_joinSegments piecesNotNil piecesFree,
    List.map_map]
  conv_rhs => rw [← List.map_id path]
  apply List.map_congr_left
  intro name _
  exact String.ofList_toList

end Quiczilla
