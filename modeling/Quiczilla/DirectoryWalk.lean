import Quiczilla.DirectoryEncoding

/-!
# The walk over a source directory

At every moment of the walk, what the written frames describe together with
the listing of what is left on the stack is the listing of the source, with
every path as it is spelled on the wire.
-/

namespace Quiczilla

open Foundation

/-! ## One file -/

/-- The copy loop writes the announced number of bytes of the file. -/
theorem copyContent_eq
    {sizes : Nat → Nat} {fuel remaining : Nat}
    {content copied : List UInt8}
    (copies : copyContent sizes fuel remaining content = some copied) :
    copied = content.take remaining ∧ remaining ≤ content.length := by
  induction fuel generalizing remaining content copied with
  | zero =>
      cases remaining with
      | zero =>
          cases copies
          simp
      | succ remaining => cases copies
  | succ fuel inductionHypothesis =>
      cases remaining with
      | zero =>
          cases copies
          simp
      | succ remaining =>
          rw [copyContent] at copies
          split at copies
          · cases copies
          · rename_i byte read isRead
            obtain ⟨later, laterCopies, isCopied⟩ :=
              Option.map_eq_some_iff.mp copies
            obtain ⟨isLater, enough⟩ := inductionHypothesis laterCopies
            have bounded :
                max 1
                    (min (sizes fuel)
                      (min (remaining + 1) fileChunkSize)) ≤
                  remaining + 1 :=
              max_le (Nat.succ_pos remaining)
                ((min_le_right _ _).trans (min_le_left _ _))
            generalize
              max 1 (min (sizes fuel) (min (remaining + 1) fileChunkSize)) =
                limit at isRead bounded
            have readLength := congrArg List.length isRead
            rw [List.length_take, List.length_cons] at readLength
            have isTaken :
                content.take (read.length + 1) = byte :: read := by
              rw [← isRead, List.take_eq_take_iff]
              omega
            rw [List.length_drop] at enough
            refine ⟨?_, by omega⟩
            have sum :
                remaining + 1 =
                  read.length + 1 + (remaining - read.length) := by
              omega
            have taken :=
              @List.take_add _ content (read.length + 1)
                (remaining - read.length)
            rw [sum, taken, isTaken, ← isCopied, isLater]

/-- A file with the announced length is copied to its end. -/
theorem copyContent_of_length
    (sizes : Nat → Nat) {fuel remaining : Nat} {content : List UInt8}
    (isLength : content.length = remaining) (enough : remaining ≤ fuel) :
    copyContent sizes fuel remaining content = some content := by
  induction fuel generalizing remaining content with
  | zero =>
      obtain rfl := Nat.le_zero.mp enough
      rw [copyContent, List.length_eq_zero_iff.mp isLength]
  | succ fuel inductionHypothesis =>
      cases remaining with
      | zero =>
          rw [copyContent, List.length_eq_zero_iff.mp isLength]
      | succ remaining =>
          rw [copyContent]
          split
          · rename_i isRead
            have readLength := congrArg List.length isRead
            rw [List.length_take, List.length_nil] at readLength
            omega
          · rename_i byte read isRead
            have bounded :
                max 1
                    (min (sizes fuel)
                      (min (remaining + 1) fileChunkSize)) ≤
                  remaining + 1 :=
              max_le (Nat.succ_pos remaining)
                ((min_le_right _ _).trans (min_le_left _ _))
            generalize
              max 1 (min (sizes fuel) (min (remaining + 1) fileChunkSize)) =
                limit at isRead bounded
            have readLength := congrArg List.length isRead
            rw [List.length_take, List.length_cons] at readLength
            have isTaken :
                content.take (read.length + 1) = byte :: read := by
              rw [← isRead, List.take_eq_take_iff]
              omega
            have laterCopies :
                copyContent sizes fuel (remaining - read.length)
                    (content.drop (read.length + 1)) =
                  some (content.drop (read.length + 1)) :=
              inductionHypothesis
                (by rw [List.length_drop]; omega) (by omega)
            rw [laterCopies, Option.map_some, ← isTaken,
              List.take_append_drop]

theorem pathToWire_ok
    {value wire : String} (accepted : pathToWire value = .ok wire) :
    wire = wireText value ∧ validateRelativePath .unix wire = .ok () := by
  rw [pathToWire] at accepted
  split at accepted
  · cases accepted
  · rename_i isValid
    cases accepted
    exact ⟨rfl, isValid⟩

/-- The path of a frame is the path of its entry, as it is spelled on the
wire. -/
theorem entryToWire_ok
    {parents : List String} {name : EntryName} {text wire : String}
    (accepted : entryToWire parents name = .ok (text, wire)) :
    name.text = some text ∧
      pathSegments wire = wirePath (parents ++ [text]) ∧
        validateRelativePath .unix wire = .ok () := by
  rw [entryToWire] at accepted
  split at accepted
  · cases accepted
  · rename_i isText
    split at accepted
    · cases accepted
    · rename_i isWire
      cases accepted
      obtain ⟨spelled, isValid⟩ := pathToWire_ok isWire
      refine ⟨isText, ?_, isValid⟩
      rw [spelled]
      rfl

/-! ## The invariant -/

/-- The listing of what is left on the stack. -/
def pendingListing (stack : List (List String × SourceEntries)) : Listing :=
  stack.flatMap fun level => Listing.below level.1 level.2.listing

/-- The frames that were written, and what they leave to describe. -/
structure WritesFrames
    (tree : SourceTree) (checksum : Bool) (sender : DirectorySender)
    (ending : List UInt8) : Prop where
  flag : sender.checksum = checksum
  written :
    ∃ text wire, tree.name.text = some text ∧ pathToWire text = .ok wire ∧
      sender.written =
        encodeStart wire ++ (encodeFrames sender.frames ++ ending)
  wellFormed : ∀ frame ∈ sender.frames, frame.WellFormed
  digested : ∀ frame ∈ sender.frames, frame.Digested checksum
  counted : sender.stats = statsOf sender.frames
  progress :
    describedBy sender.frames ++ (pendingListing sender.stack).wired =
      tree.listing.wired
  unchanged : ∀ level ∈ sender.stack, level.2.Unchanged

/-- What holds of a sender in its phase. -/
def SendsTree
    (tree : SourceTree) (profile : StorageProfile) (checksum : Bool)
    (sender : DirectorySender) : Prop :=
  match sender.phase with
  | .opening => sender = .start tree.entries profile checksum
  | .walking => WritesFrames tree checksum sender []
  | .done =>
      sender.stack = [] ∧
        WritesFrames tree checksum sender
          (encodeEnd (statsOf sender.frames))
  | .failed _ => True

theorem encodeFrames_append (frames : List DirectoryFrame)
    (frame : DirectoryFrame) :
    encodeFrames (frames ++ [frame]) = encodeFrames frames ++ frame.encode := by
  simp [encodeFrames]

section Writing

variable {tree : SourceTree} {checksum : Bool}
  {sender next : DirectorySender}

/-- A frame is written, and the stack gives up what it describes. -/
theorem WritesFrames.write
    (holds : WritesFrames tree checksum sender [])
    (frame : DirectoryFrame) (wellFormed : frame.WellFormed)
    (digested : frame.Digested checksum)
    (isFlag : next.checksum = sender.checksum)
    (isWritten : next.written = sender.written ++ frame.encode)
    (isFrames : next.frames = sender.frames ++ [frame])
    (isStats : next.stats = sender.stats.count frame)
    (moves :
      frame.entry?.toList ++ (pendingListing next.stack).wired =
        (pendingListing sender.stack).wired)
    (unchanged : ∀ level ∈ next.stack, level.2.Unchanged) :
    WritesFrames tree checksum next [] where
  flag := isFlag.trans holds.flag
  written := by
    obtain ⟨text, wire, isText, isWire, bytes⟩ := holds.written
    refine ⟨text, wire, isText, isWire, ?_⟩
    rw [isWritten, bytes, isFrames, encodeFrames_append]
    simp
  wellFormed := by
    intro other member
    rw [isFrames] at member
    rcases List.mem_append.mp member with earlier | isLast
    · exact holds.wellFormed other earlier
    · rw [List.mem_singleton.mp isLast]
      exact wellFormed
  digested := by
    intro other member
    rw [isFrames] at member
    rcases List.mem_append.mp member with earlier | isLast
    · exact holds.digested other earlier
    · rw [List.mem_singleton.mp isLast]
      exact digested
  counted := by
    rw [isStats, holds.counted, isFrames, statsOf_append]
  progress := by
    rw [isFrames, describedBy_append, List.append_assoc, moves,
      holds.progress]
  unchanged := unchanged

/-- Nothing is written, and the stack loses nothing. -/
theorem WritesFrames.skip
    (holds : WritesFrames tree checksum sender [])
    {stack : List (List String × SourceEntries)}
    (same : pendingListing stack = pendingListing sender.stack)
    (unchanged : ∀ level ∈ stack, level.2.Unchanged) :
    WritesFrames tree checksum { sender with stack := stack } [] where
  flag := holds.flag
  written := holds.written
  wellFormed := holds.wellFormed
  digested := holds.digested
  counted := holds.counted
  progress := by
    have before := holds.progress
    rw [← same] at before
    exact before
  unchanged := unchanged

/-- The frames of packs describe nothing. -/
theorem WritesFrames.rollPack
    (holds : WritesFrames tree checksum sender []) (size : Nat) :
    WritesFrames tree checksum (sender.rollPack size) [] := by
  rw [DirectorySender.rollPack]
  split
  · have closed :
        WritesFrames tree checksum (sender.write .packEnd) [] :=
      holds.write .packEnd trivial trivial rfl rfl rfl rfl rfl
        holds.unchanged
    have fits : (sender.packNumber + 1) % 2 ^ 64 < 2 ^ 64 :=
      Nat.mod_lt _ (by norm_num)
    exact
      closed.write (.packStart ((sender.packNumber + 1) % 2 ^ 64)) fits
        trivial rfl rfl rfl rfl rfl holds.unchanged
  · exact holds

@[simp]
theorem rollPack_stack (sender : DirectorySender) (size : Nat) :
    (sender.rollPack size).stack = sender.stack := by
  rw [DirectorySender.rollPack]
  split <;> rfl

@[simp]
theorem rollPack_phase (sender : DirectorySender) (size : Nat) :
    (sender.rollPack size).phase = sender.phase := by
  rw [DirectorySender.rollPack]
  split <;> rfl

end Writing

/-! ## The steps -/

theorem pendingListing_cons
    (parents : List String) (entries : SourceEntries)
    (stack : List (List String × SourceEntries)) :
    pendingListing ((parents, entries) :: stack) =
      Listing.below parents entries.listing ++ pendingListing stack :=
  rfl

theorem below_cons
    (parents path : List String) (item : ListedItem) (listing : Listing) :
    Listing.below parents ((path, item) :: listing) =
      (parents ++ path, item) :: listing.below parents :=
  rfl

theorem below_append (parents : List String) (first second : Listing) :
    Listing.below parents (first ++ second) =
      first.below parents ++ second.below parents :=
  List.map_append

theorem below_below (outer inner : List String) (listing : Listing) :
    (listing.below inner).below outer = listing.below (outer ++ inner) := by
  simp [Listing.below]

section Steps

variable {tree : SourceTree} {profile : StorageProfile} {checksum : Bool}
  {sender next : DirectorySender}

theorem sendsTree_openStream
    (isStart : sender = .start tree.entries profile checksum) :
    SendsTree tree profile checksum (sender.openStream tree.name) := by
  subst isStart
  rw [DirectorySender.openStream]
  split
  · trivial
  · rename_i text isText
    split
    · trivial
    · rename_i wire isWire
      change WritesFrames tree checksum _ []
      refine
        { flag := rfl
          written := ⟨text, wire, isText, isWire, ?_⟩
          wellFormed := ?_
          digested := ?_
          counted := rfl
          progress := ?_
          unchanged := ?_ }
      · simp [DirectorySender.write, DirectorySender.start, encodeFrames]
      · intro frame member
        rw [List.mem_singleton.mp member]
        exact Nat.two_pow_pos 64
      · intro frame member
        rw [List.mem_singleton.mp member]
        trivial
      · have whole :
            pendingListing [([], tree.entries)] = tree.listing := by
          simp [pendingListing, Listing.below, SourceTree.listing]
        exact congrArg Listing.wired whole
      · intro level member
        rw [List.mem_singleton.mp member]
        exact tree.unchanged

/-- The last turn writes the totals. -/
theorem sendsTree_finish
    (holds : WritesFrames tree checksum sender []) :
    WritesFrames tree checksum
      { sender.write .packEnd with
        written := (sender.write .packEnd).written ++ encodeEnd sender.stats
        phase := .done }
      (encodeEnd (statsOf (sender.frames ++ [.packEnd]))) := by
  have closed : WritesFrames tree checksum (sender.write .packEnd) [] :=
    holds.write .packEnd trivial trivial rfl rfl rfl rfl rfl
      holds.unchanged
  obtain ⟨text, wire, isText, isWire, bytes⟩ := closed.written
  exact
    { flag := closed.flag
      written := by
        refine ⟨text, wire, isText, isWire, ?_⟩
        have totals :
            encodeEnd sender.stats =
              encodeEnd (statsOf (sender.frames ++ [.packEnd])) :=
          congrArg encodeEnd closed.counted
        rw [← totals]
        change (sender.write .packEnd).written ++ _ = _
        rw [bytes]
        simp [DirectorySender.write]
      wellFormed := closed.wellFormed
      digested := closed.digested
      counted := closed.counted
      progress := closed.progress
      unchanged := closed.unchanged }

theorem writesFrames_directory
    (holds : WritesFrames tree checksum sender [])
    {parents : List String} {name : EntryName} {inside rest : SourceEntries}
    {below : List (List String × SourceEntries)}
    (isStack :
      sender.stack = (parents, .directory name inside rest) :: below)
    {text wire : String}
    (accepted : entryToWire parents name = .ok (text, wire)) :
    WritesFrames tree checksum
      { sender.write (.directory wire) with
        stack := (parents ++ [text], inside) :: (parents, rest) :: below
        stats :=
          { sender.stats with
            directories := (sender.stats.directories + 1) % 2 ^ 64 } }
      [] := by
  obtain ⟨isText, isPath, isValid⟩ := entryToWire_ok accepted
  have unchanged := holds.unchanged
  rw [isStack] at unchanged
  have headUnchanged : inside.Unchanged ∧ rest.Unchanged :=
    unchanged _ List.mem_cons_self
  refine
    holds.write (.directory wire) isValid trivial rfl rfl rfl rfl
      ?_ ?_
  · change
      [(pathSegments wire, ListedItem.directory)] ++
          (pendingListing
            ((parents ++ [text], inside) :: (parents, rest) ::
              below)).wired =
        (pendingListing sender.stack).wired
    rw [isStack, isPath]
    simp only [pendingListing_cons, SourceEntries.listing, isText,
      below_cons, below_append, below_below, Listing.wired,
      List.map_cons, List.cons_append, List.append_assoc, List.nil_append]
  · intro level member
    rcases List.mem_cons.mp member with rfl | behind
    · exact headUnchanged.1
    · rcases List.mem_cons.mp behind with rfl | later
      · exact headUnchanged.2
      · exact unchanged level (List.mem_cons_of_mem _ later)

theorem writesFrames_file
    (holds : WritesFrames tree checksum sender [])
    {parents : List String} {name : EntryName} {size : Nat}
    {content : List UInt8} {rest : SourceEntries}
    {below : List (List String × SourceEntries)}
    (isStack :
      sender.stack = (parents, .file name size content rest) :: below)
    {text wire : String}
    (accepted : entryToWire parents name = .ok (text, wire))
    {sizes : Nat → Nat} {copied : List UInt8}
    (copies : copyContent sizes size size content = some copied) :
    WritesFrames tree checksum
      (DirectorySender.sentFile
        { sender.rollPack size with stack := (parents, rest) :: below }
        wire size copied)
      [] := by
  obtain ⟨isText, isPath, isValid⟩ := entryToWire_ok accepted
  obtain ⟨isCopied, _⟩ := copyContent_eq copies
  have unchanged := holds.unchanged
  rw [isStack] at unchanged
  obtain ⟨isSize, sizeFits, restUnchanged⟩ :
      size = content.length ∧ size < 2 ^ 64 ∧ rest.Unchanged :=
    unchanged _ List.mem_cons_self
  have isContent : copied = content := by
    rw [isCopied, isSize, List.take_length]
  subst isContent
  have rolled := holds.rollPack size
  refine
    rolled.write
      (.file wire copied
        (if (sender.rollPack size).checksum then 1 else 0)
        (if (sender.rollPack size).checksum then sha256 copied else []))
      ?_ ?_ rfl rfl rfl ?_ ?_ ?_
  · refine ⟨isValid, isSize ▸ sizeFits, ?_⟩
    cases (sender.rollPack size).checksum <;> rfl
  · rw [rolled.flag]
    exact ⟨rfl, rfl⟩
  · rw [isSize]
    rfl
  · change
      [(pathSegments wire, ListedItem.file copied)] ++
          (pendingListing ((parents, rest) :: below)).wired =
        (pendingListing (sender.rollPack size).stack).wired
    rw [rollPack_stack, isStack, isPath]
    simp only [pendingListing_cons, SourceEntries.listing, isText,
      below_cons, Listing.wired, List.map_cons, List.cons_append,
      List.nil_append]
  · intro level member
    rcases List.mem_cons.mp member with rfl | later
    · exact restUnchanged
    · exact unchanged level (List.mem_cons_of_mem _ later)

theorem sendsTree_turn
    (isWalking : sender.phase = .walking)
    (holds : WritesFrames tree checksum sender []) (source : String)
    (sizes : Nat → Nat) :
    SendsTree tree profile checksum (sender.turn source sizes) := by
  have unchanged := holds.unchanged
  have stays {result : DirectorySender}
      (isPhase : result.phase = sender.phase)
      (written : WritesFrames tree checksum result []) :
      SendsTree tree profile checksum result := by
    rw [SendsTree, isPhase, isWalking]
    exact written
  rw [DirectorySender.turn]
  split
  · rename_i isEmpty
    exact ⟨isEmpty, sendsTree_finish holds⟩
  · rename_i parents below isStack
    rw [isStack] at unchanged
    refine stays rfl (holds.skip (by rw [isStack]; rfl) ?_)
    exact fun level member =>
      unchanged level (List.mem_cons_of_mem _ member)
  · rename_i parents name rest below isStack
    rw [isStack] at unchanged
    refine stays rfl (holds.skip (by rw [isStack]; rfl) ?_)
    intro level member
    rcases List.mem_cons.mp member with rfl | later
    · exact unchanged (parents, .symlink name rest) List.mem_cons_self
    · exact unchanged level (List.mem_cons_of_mem _ later)
  · rename_i parents name rest below isStack
    rw [isStack] at unchanged
    split
    · trivial
    · refine stays rfl (holds.skip (by rw [isStack]; rfl) ?_)
      intro level member
      rcases List.mem_cons.mp member with rfl | later
      · exact unchanged (parents, .special name rest) List.mem_cons_self
      · exact unchanged level (List.mem_cons_of_mem _ later)
  · rename_i parents name inside rest below isStack
    split
    · trivial
    · rename_i accepted
      exact stays rfl (writesFrames_directory holds isStack accepted)
  · rename_i parents name size content rest below isStack
    split
    · trivial
    · rename_i accepted
      split
      · trivial
      · rename_i copies
        refine stays ?_ (writesFrames_file holds isStack accepted copies)
        exact rollPack_phase sender size

theorem sendsTree_step
    {label : DirectorySendLabel}
    (holds : SendsTree tree profile checksum sender)
    (stepped : directorySendStep tree.name sender label = some next) :
    SendsTree tree profile checksum next := by
  cases label with
  | openStream =>
      rw [directorySendStep] at stepped
      split at stepped
      · rename_i isOpening
        cases stepped
        rw [SendsTree, isOpening] at holds
        exact sendsTree_openStream holds
      · cases stepped
  | turn source sizes =>
      rw [directorySendStep] at stepped
      split at stepped
      · rename_i isWalking
        cases stepped
        rw [SendsTree, isWalking] at holds
        exact sendsTree_turn isWalking holds source sizes
      · cases stepped
  | fault reason =>
      rw [directorySendStep] at stepped
      split at stepped
      · cases stepped
        trivial
      · cases stepped
  | faultInFile reason =>
      rw [directorySendStep] at stepped
      split at stepped
      · cases stepped
        rw [DirectorySender.failInFile]
        split <;> trivial
      · cases stepped

end Steps

/-- The invariant holds along every run. -/
theorem sendsTree_run
    {tree : SourceTree} {profile : StorageProfile} {checksum : Bool}
    {labels : List DirectorySendLabel} {sender : DirectorySender}
    (run :
      Run (directorySendStep tree.name) anyStep
        (.start tree.entries profile checksum) labels sender) :
    SendsTree tree profile checksum sender :=
  run.preserves (SendsTree tree profile checksum)
    (fun _ _ _ holds _ stepped => sendsTree_step holds stepped) rfl

/-! ## The whole stream -/

/-- The name that is spelled on the wire is the whole of what the START frame
decodes to. -/
theorem readStream_root
    {wire : String} (accepted : validateRelativePath .unix wire = .ok ())
    {rest behind : List UInt8} {rootName : String}
    {frames : List DirectoryFrame}
    (decodes :
      readStream (encodeStart wire ++ rest) = .ok (rootName, frames, behind)) :
    rootName = wire ∧ (Platform.unix.parse wire).componentCount = 1 := by
  have pathRead := readPath_encodePath accepted rest
  by_cases single : (Platform.unix.parse wire).componentCount = 1
  · have startRead := readStart_encodeStart accepted single rest
    rw [readStream, startRead] at decodes
    simp only [bind, Except.bind] at decodes
    split at decodes
    · cases decodes
    · cases decodes
      exact ⟨rfl, single⟩
  · have startRefused :
        readStart (encodeStart wire ++ rest) =
          .error "directory transfer root must be one path component" := by
      change readStart (frameStart :: (encodePath wire ++ rest)) = _
      simp [readStart, pathRead, bind, Except.bind, single]
    rw [readStream, startRefused] at decodes
    cases decodes

section Stream

variable {tree : SourceTree} {checksum : Bool} {sender : DirectorySender}

/-- The described entries are those of the source when no name has a
backslash. -/
theorem describedBy_eq
    (holds :
      WritesFrames tree checksum sender
        (encodeEnd (statsOf sender.frames)))
    (isEmpty : sender.stack = [])
    (plain :
      ∀ path item, tree.entries.Holds path item →
        ∀ name ∈ path, '\\' ∉ name.toList) :
    describedBy sender.frames = tree.listing := by
  have progress := holds.progress
  rw [isEmpty] at progress
  have described : describedBy sender.frames = tree.listing.wired := by
    simpa [pendingListing, Listing.wired] using progress
  rw [described, Listing.wired]
  conv_rhs => rw [← List.map_id tree.listing]
  apply List.map_congr_left
  rintro ⟨path, item⟩ member
  have isHeld := mem_listing_iff.mp member
  obtain ⟨notNil, normal⟩ := normal_of_holds isHeld
  exact
    congrArg (·, item) (wirePath_eq notNil normal (plain path item isHeld))

theorem encodedBy_of_noBackslash
    (holds :
      WritesFrames tree checksum sender
        (encodeEnd (statsOf sender.frames)))
    (isEmpty : sender.stack = []) (plain : tree.NoBackslash)
    (fits : tree.listing.stats.Fits) :
    ∃ rootName,
      tree.EncodedBy checksum sender.written rootName sender.frames := by
  obtain ⟨text, wire, isText, isWire, bytes⟩ := holds.written
  obtain ⟨spelled, accepted⟩ := pathToWire_ok isWire
  have sameText : wire = text := by
    rw [spelled, wireText_eq (plain.root text isText)]
  subst sameText
  have noDrive : ¬Platform.unix.HasDrive wire := by
    rintro ⟨isWindows, _⟩
    cases isWindows
  have single : (Platform.unix.parse wire).componentCount = 1 := by
    rw [Platform.parse_of_no_drive (plain.root wire isText) noDrive,
      components_of_normal (tree.name.legal wire isText)]
    rfl
  have described := describedBy_eq holds isEmpty plain.entries
  obtain ⟨isFiles, isDirectories, isBytes⟩ := statsOf_eq sender.frames
  obtain ⟨filesFit, directoriesFit, bytesFit⟩ := fits
  refine
    ⟨wire,
      { decodes := ?_
        root := isText
        entries := ?_
        once := ?_
        parentsFirst := ?_
        digests := holds.digested
        files := ?_
        directories := ?_
        bytes := ?_ }⟩
  · have decoded :=
      readStream_encode accepted single holds.wellFormed []
    rw [List.append_nil] at decoded
    rw [bytes]
    exact decoded
  · intro path item
    rw [described]
    exact mem_listing_iff
  · rw [described]
    exact nodup_listing tree.distinct
  · rw [described]
    exact parentsFirst_listing tree.entries
  · rw [isFiles, described, Nat.mod_eq_of_lt filesFit]
  · rw [isDirectories, described, Nat.mod_eq_of_lt directoriesFit]
  · rw [isBytes, described, Nat.mod_eq_of_lt bytesFit]

theorem noBackslash_of_encodedBy
    (holds :
      WritesFrames tree checksum sender
        (encodeEnd (statsOf sender.frames)))
    (isEmpty : sender.stack = []) {rootName : String}
    {frames : List DirectoryFrame}
    (encoded : tree.EncodedBy checksum sender.written rootName frames) :
    tree.NoBackslash ∧ tree.listing.stats.Fits := by
  obtain ⟨text, wire, isText, isWire, bytes⟩ := holds.written
  obtain ⟨spelled, accepted⟩ := pathToWire_ok isWire
  have decodes := encoded.decodes
  rw [bytes] at decodes
  obtain ⟨sameRoot, single⟩ := readStream_root accepted decodes
  have decoded := readStream_encode accepted single holds.wellFormed []
  rw [List.append_nil] at decoded
  have sameFrames : frames = sender.frames := by
    rw [decoded] at decodes
    cases decodes
    rfl
  subst sameFrames
  have plain : tree.NoBackslash := by
    refine ⟨?_, ?_⟩
    · intro name isName
      rw [encoded.root, sameRoot, spelled] at isName
      cases isName
      exact noBackslash_wireText text
    · intro path item isHeld name member
      have progress := holds.progress
      rw [isEmpty] at progress
      have inFrames := (encoded.entries path item).mpr isHeld
      have described : describedBy sender.frames = tree.listing.wired := by
        simpa [pendingListing, Listing.wired] using progress
      rw [described] at inFrames
      obtain ⟨⟨sourcePath, _⟩, _, same⟩ := List.mem_map.mp inFrames
      cases same
      exact noBackslash_wirePath member
  refine ⟨plain, ?_⟩
  have described := describedBy_eq holds isEmpty plain.entries
  obtain ⟨filesFit, directoriesFit, bytesFit⟩ :=
    statsOf_fits sender.frames
  rw [encoded.files, described] at filesFit
  rw [encoded.directories, described] at directoriesFit
  rw [encoded.bytes, described] at bytesFit
  exact ⟨filesFit, directoriesFit, bytesFit⟩

end Stream

/-- A send that ends without an error has encoded the source exactly when no
name that it spelled has a backslash and the totals fit their fields. -/
theorem directory_encoded_exactly
    (tree : SourceTree) (profile : StorageProfile) (checksum : Bool)
    (labels : List DirectorySendLabel) (sender : DirectorySender)
    (run :
      Run (directorySendStep tree.name) anyStep
        (.start tree.entries profile checksum) labels sender)
    (finished : sender.phase = .done) :
    (∃ rootName frames,
        tree.EncodedBy checksum sender.written rootName frames) ↔
      tree.NoBackslash ∧ tree.listing.stats.Fits := by
  have holds := sendsTree_run run
  rw [SendsTree, finished] at holds
  obtain ⟨isEmpty, wrote⟩ := holds
  constructor
  · rintro ⟨rootName, frames, encoded⟩
    exact noBackslash_of_encodedBy wrote isEmpty encoded
  · rintro ⟨plain, fits⟩
    obtain ⟨rootName, encoded⟩ :=
      encodedBy_of_noBackslash wrote isEmpty plain fits
    exact ⟨rootName, sender.frames, encoded⟩

def EntryName.ofText (text : String) (normal : IsNormalName text) :
    EntryName where
  text := some text
  legal := by
    intro name isName
    cases isName
    exact normal

/-- A directory with an empty directory and a file in it, and a file behind
it. -/
def nestedTree : SourceTree where
  name := .ofText "source" (by decide +kernel)
  entries :=
    .directory (.ofText "nested" (by decide +kernel))
      (.directory (.ofText "empty" (by decide +kernel)) .done
        (.file (.ofText "hello.txt" (by decide +kernel)) 2 [104, 105] .done))
      (.file (.ofText "root.bin" (by decide +kernel)) 1 [7] .done)
  distinct := by
    simp [SourceEntries.Distinct, SourceEntries.names, EntryName.ofText]
  unchanged := by
    simp [SourceEntries.Unchanged]

theorem directory_encoded_nested :
    ∃ labels sender,
      Run (directorySendStep nestedTree.name) anyStep
          (.start nestedTree.entries .hdd false) labels sender ∧
        sender.phase = .done ∧
          ∃ rootName frames,
            nestedTree.EncodedBy false sender.written rootName frames := by
  let labels : List DirectorySendLabel :=
    .openStream :: List.replicate 8 (.turn "/source" fun _ => 0)
  have ran :
      (replay (directorySendStep nestedTree.name)
          (.start nestedTree.entries .hdd false) labels).map
          DirectorySender.phase =
        some .done := by
    decide +kernel
  obtain ⟨sender, reached, finished⟩ := Option.map_eq_some_iff.mp ran
  have plainNames :
      ∀ entry ∈ nestedTree.listing, ∀ name ∈ entry.1,
        '\\' ∉ name.toList := by
    decide +kernel
  have plain : nestedTree.NoBackslash := by
    refine ⟨?_, ?_⟩
    · intro text isText
      cases isText
      decide +kernel
    · intro path item isHeld
      exact plainNames (path, item) (mem_listing_iff.mpr isHeld)
  refine ⟨labels, sender, run_of_replay reached, finished, ?_⟩
  exact
    (directory_encoded_exactly nestedTree .hdd false labels sender
        (run_of_replay reached) finished).mpr
      ⟨plain, by decide +kernel, by decide +kernel, by decide +kernel⟩

/-- One file, whose legal name has a backslash in it. -/
def backslashTree : SourceTree where
  name := .ofText "source" (by decide +kernel)
  entries := .file (.ofText "a\\b" (by decide +kernel)) 1 [7] .done
  distinct := by
    simp [SourceEntries.Distinct, SourceEntries.names, EntryName.ofText]
  unchanged := by
    simp [SourceEntries.Unchanged]

/-- The file is sent as `b` in a directory `a`, and the send succeeds. -/
theorem backslash_name_sent_as_path :
    ∃ labels sender,
      Run (directorySendStep backslashTree.name) anyStep
          (.start backslashTree.entries .hdd false) labels sender ∧
        sender.phase = .done ∧
          describedBy sender.frames = [(["a", "b"], .file [7])] ∧
            ¬∃ rootName frames,
                backslashTree.EncodedBy false sender.written rootName
                  frames := by
  let labels : List DirectorySendLabel :=
    .openStream :: List.replicate 3 (.turn "/source" fun _ => 0)
  have ran :
      (replay (directorySendStep backslashTree.name)
          (.start backslashTree.entries .hdd false) labels).map
          (fun sender => (sender.phase, describedBy sender.frames)) =
        some (.done, [(["a", "b"], .file [7])]) := by
    decide +kernel
  obtain ⟨sender, reached, same⟩ := Option.map_eq_some_iff.mp ran
  have finished : sender.phase = .done := congrArg Prod.fst same
  have run := run_of_replay reached
  have holds := sendsTree_run run
  rw [SendsTree, finished] at holds
  obtain ⟨isEmpty, wrote⟩ := holds
  refine ⟨labels, sender, run, finished, congrArg Prod.snd same, ?_⟩
  rintro ⟨rootName, frames, encoded⟩
  obtain ⟨plain, _⟩ := noBackslash_of_encodedBy wrote isEmpty encoded
  have isHeld : backslashTree.entries.Holds ["a\\b"] (.file [7]) :=
    .file rfl
  have hasBackslash : '\\' ∈ "a\\b".toList := by decide +kernel
  exact
    plain.entries ["a\\b"] _ isHeld "a\\b" List.mem_cons_self hasBackslash

end Quiczilla
