import Mathlib.Data.List.Infix
import Quiczilla.OfferSlots
import Quiczilla.ReceiveJobs
import Quiczilla.ReceivePaths
import Quiczilla.WorkerLoop

/-!
# Where an accepted offer may write

`handle_accept` trims control characters from the name and from the save
directory, and only then takes the last component of the name.  The staging
path is derived from the destination by `get_part_path`, which replaces the
last component of whatever it is given: when nothing is left of the name, that
is the last component of the save directory itself.
-/

namespace Quiczilla

open Foundation

/-- The path lies directly in the directory, under a plain name or that name
with the staging suffix. -/
def DirectlyInside (saveDir : String) (path : UnixPath) : Prop :=
  ∃ name, IsNormalName name ∧
    (path = components saveDir ++ [.normal name] ∨
      path = components saveDir ++ [.normal (name ++ partialFileSuffix)])

/-- All offers of a run are this one, and all accepts are for this
directory. -/
def OnlyOffer (saveDir name : String) (size : Nat) : PeerLabel → Prop
  | .control ⟨.metadata otherName otherSize _ _, _⟩ _ =>
      otherName = name ∧ otherSize = size
  | .command (.acceptFile otherDir _ _) _ => otherDir = saveDir
  | _ => True

/-- Whatever the other peer does with the offer, the files that handling it
touches lie directly in the directory. -/
def ContainedIn (saveDir name : String) (size : Nat) : Prop :=
  ∀ (files : Files) (labels : List PeerLabel) (peer : Peer),
    (∃ length, files (components saveDir) = some (.directory length)) →
      Run peerStep (fun _ => OnlyOffer saveDir name size)
          (Peer.initial files) labels peer →
        ∀ path ∈ peer.touched, DirectlyInside saveDir path

/-- Trimming leaves the directory that the string names. -/
def TrimsToItself (saveDir : String) : Prop :=
  components (trimControls saveDir) = components saveDir

/-- Something is left of the name for the last component. -/
def HasFinalName (name : String) : Prop :=
  (fileName (components (trimControls name))).isSome = true

/-! ## Contained offers -/

/-- Directly inside, or the directory itself, which no file operation
accepts. -/
def Near (saveDir : String) (path : UnixPath) : Prop :=
  DirectlyInside saveDir path ∨ path = components saveDir

/-- Destination and, for a large offer, staging path are near. -/
structure NearOffer (saveDir name : String) (size : Nat) : Prop where
  dest : Near saveDir (destinationPath saveDir name)
  part :
    resumeThresholdBytes ≤ size →
      Near saveDir (getPartPath (destinationPath saveDir name))

/-- The offer slots hold nothing but this offer and accepts for this
directory. -/
structure OfferSlots.Only
    (saveDir name : String) (size : Nat) (slots : OfferSlots) : Prop where
  name : ∀ stored, slots.name = some stored → stored = name
  size : ∀ stored, slots.size = some stored → stored = size
  accept :
    ∀ accept, slots.accept = some accept → accept.saveDir = saveDir

structure Peer.Tidy
    (saveDir name : String) (size : Nat) (peer : Peer) : Prop where
  slots : peer.slots.Only saveDir name size
  isDirectory :
    ∃ length,
      peer.files (components saveDir) = some (.directory length)
  jobs : peer.recvSide.Jobs (WritesWithin (Near saveDir))
  opened : peer.recvSide.Opened
  part :
    ∀ path, peer.coordinator.currentPartPath = some path →
      Near saveDir path
  inside : ∀ path ∈ peer.touched, DirectlyInside saveDir path

theorem Near.inside
    {saveDir : String} {files : Files} {path : UnixPath}
    (near : Near saveDir path)
    (isDirectory :
      ∃ length, files (components saveDir) = some (.directory length))
    (notDirectory : ∀ length, files path ≠ some (.directory length)) :
    DirectlyInside saveDir path := by
  rcases near with inside | rfl
  · exact inside
  · obtain ⟨length, present⟩ := isDirectory
    exact absurd present (notDirectory length)

theorem inside_append
    {saveDir : String} {touched paths : List UnixPath}
    (before : ∀ path ∈ touched, DirectlyInside saveDir path)
    (new : ∀ path ∈ paths, DirectlyInside saveDir path) :
    ∀ path ∈ touched ++ paths, DirectlyInside saveDir path := by
  intro path member
  rcases List.mem_append.mp member with earlier | later
  · exact before path earlier
  · exact new path later

variable {saveDir name : String} {size : Nat}

theorem onlyOffer_slots
    {slots next : OfferSlots} {label : PeerLabel}
    (only : slots.Only saveDir name size)
    (admitted : OnlyOffer saveDir name size label)
    (effect : SlotEffect slots label next) :
    next.Only saveDir name size := by
  cases effect with
  | unchanged => exact only
  | offered newName newSize isMetadata _ =>
      obtain ⟨resume, checksum, message⟩ := isMetadata
      have same : newName = name ∧ newSize = size := by
        cases label with
        | control letter faults =>
            obtain ⟨_, offer⟩ := letter
            cases message
            exact admitted
        | _ => cases message
      obtain ⟨rfl, rfl⟩ := same
      exact
        ⟨fun _ stored => (Option.some.inj stored).symm,
          fun _ stored => (Option.some.inj stored).symm, nofun⟩
  | autoAccepted => exact ⟨nofun, nofun, nofun⟩
  | taken => exact ⟨nofun, nofun, only.accept⟩
  | waiting accept isAccept =>
      obtain ⟨faults, rfl⟩ := isAccept
      refine ⟨nofun, nofun, ?_⟩
      intro other stored
      rw [← Option.some.inj stored]
      exact admitted

/-- An accept that a step applies is for this offer and this directory. -/
theorem onlyOffer_applied
    {peer : Peer} {label : PeerLabel} {applied : AppliedAccept}
    (only : peer.slots.Only saveDir name size)
    (admitted : OnlyOffer saveDir name size label)
    (isApplied : peer.applied label = some applied) :
    applied.accept.saveDir = saveDir ∧ applied.name = name ∧
      applied.size = size := by
  unfold Peer.applied at isApplied
  split at isApplied
  · obtain ⟨accept, waiting, rfl⟩ := Option.map_eq_some_iff.mp isApplied
    exact ⟨only.accept accept waiting, admitted⟩
  · split at isApplied
    · rename_i storedName storedSize named sized
      cases isApplied
      exact ⟨admitted, only.name _ named, only.size _ sized⟩
    · cases isApplied
  · cases isApplied

theorem applied_leads
    {applied : AppliedAccept} (near : NearOffer saveDir name size)
    (isDir : applied.accept.saveDir = saveDir)
    (isName : applied.name = name) (isSize : applied.size = size) :
    applied.Leads (WritesWithin (Near saveDir)) := by
  have isDest : applied.destPath = destinationPath saveDir name := by
    rw [AppliedAccept.destPath, isDir, isName]
  apply leads_writesWithin
  · rw [isDest]
    exact near.dest
  · rw [AppliedAccept.partPath, isDest, isSize]
    exact near.part

theorem loopEffect_tidy
    {peer : Peer} {label : PeerLabel} {next : RecvSide}
    (near : NearOffer saveDir name size)
    (tidy : peer.Tidy saveDir name size)
    (admitted : OnlyOffer saveDir name size label)
    (effect : LoopEffect peer label next) :
    (∀ path, next.currentPartPath = some path → Near saveDir path) ∧
      ∀ path ∈ next.touched, DirectlyInside saveDir path := by
  cases effect with
  | accepted applied faults next isApplied _ effect =>
      obtain ⟨isDir, isName, isSize⟩ :=
        onlyOffer_applied tidy.slots admitted isApplied
      have part :
          resumeThresholdBytes ≤ applied.size →
            ∀ path, some applied.partPath = some path →
              Near saveDir path := by
        intro large path isPart
        rw [← Option.some.inj isPart, AppliedAccept.partPath,
          AppliedAccept.destPath, isDir, isName]
        exact near.part (isSize ▸ large)
      cases effect with
      | small offer _ => exact ⟨nofun, tidy.inside⟩
      | fresh offer large => exact ⟨part large, tidy.inside⟩
      | keepPart offer existing large _ _ _ _ =>
          exact ⟨part large, tidy.inside⟩
      | keepDest offer large _ _ _ _ => exact ⟨part large, tidy.inside⟩
      | cutPart offer existing cut large _ _ _ succeeded =>
          refine ⟨part large, inside_append tidy.inside ?_⟩
          intro path member
          rw [List.mem_singleton.mp member]
          apply (part large _ rfl).inside tidy.isDirectory
          intro length isDirectory
          obtain ⟨content, present, _⟩ :=
            FileStore.setLength_eq_some succeeded
          have present : peer.files applied.partPath = _ := present
          rw [present] at isDirectory
          cases isDirectory
  | recreated job partPath created _ _ _ isPart succeeded =>
      refine ⟨tidy.part, inside_append tidy.inside ?_⟩
      intro path member
      rw [List.mem_singleton.mp member]
      exact
        (tidy.part partPath isPart).inside tidy.isDirectory
          (FileStore.create_eq_some succeeded).2
  | _ => exact ⟨tidy.part, tidy.inside⟩

/-- The target of a job that could be opened lies inside. -/
theorem opened_inside
    {files made opened : Files} {job : RecvJob}
    (near : WritesWithin (Near saveDir) job)
    (isDirectory :
      ∃ length, files (components saveDir) = some (.directory length))
    (ensured : files.ensureDirectories job.ancestors = some made)
    (targetOpened : job.openTarget made = some opened) :
    ∀ path ∈ [job.targetWritePath], DirectlyInside saveDir path := by
  intro path member
  obtain ⟨length, present⟩ := isDirectory
  have still :=
    FileStore.keepsDirectories_ensureDirectories ensured _ length present
  rw [List.mem_singleton.mp member]
  exact
    near.1.inside ⟨length, still⟩ (openTarget_notDirectory targetOpened)

theorem taskEffect_tidy
    {peer next : Peer} {label : RecvLabel}
    (tidy : peer.Tidy saveDir name size)
    (effect : TaskEffect label peer next) :
    ∀ path ∈ next.touched, DirectlyInside saveDir path := by
  have active : peer.receiver.Holds (WritesWithin (Near saveDir)) := tidy.jobs.active
  have again :
      ∀ path, peer.receiver.target = some path →
        ∀ other ∈ peer.touched ++ [path],
          DirectlyInside saveDir other := by
    intro path isTarget
    apply inside_append tidy.inside
    intro other member
    rw [List.mem_singleton.mp member]
    exact tidy.inside path (tidy.opened path isTarget)
  cases effect with
  | seekFailed job files opened opening made targetOpened =>
      rw [opening] at active
      exact
        inside_append tidy.inside
          (opened_inside active tidy.isDirectory made targetOpened)
  | opened job files opened opening made targetOpened =>
      rw [opening] at active
      exact
        inside_append tidy.inside
          (opened_inside active tidy.isDirectory made targetOpened)
  | storedChunk receiving chunk rest phase _ _ =>
      exact again _ (congrArg RecvPhase.target phase)
  | writerFailed receiving chunk rest length phase _ =>
      exact again _ (congrArg RecvPhase.target phase)
  | committed verifying expectedHash rest renamed phase _ _ _ moved =>
      apply inside_append tidy.inside
      rw [phase] at active
      intro path member
      rcases List.mem_cons.mp member with rfl | isDest
      · exact
          tidy.inside _
            (tidy.opened _ (congrArg RecvPhase.target phase))
      · rw [List.mem_singleton.mp isDest]
        obtain ⟨_, _, _, notDirectory⟩ := FileStore.rename_eq_some moved
        exact active.1.2.inside tidy.isDirectory notDirectory
  | _ => exact tidy.inside

theorem peerStep_tidy
    {peer next : Peer} {label : PeerLabel}
    (near : NearOffer saveDir name size)
    (tidy : peer.Tidy saveDir name size)
    (admitted : OnlyOffer saveDir name size label)
    (stepped : peerStep peer label = some next) :
    next.Tidy saveDir name size := by
  have partAndInside :
      (∀ path, next.coordinator.currentPartPath = some path →
          Near saveDir path) ∧
        ∀ path ∈ next.touched, DirectlyInside saveDir path := by
    rcases peerStep_effect stepped with effect | ⟨recvLabel, _, effect⟩
    · exact loopEffect_tidy near tidy admitted effect
    · rw [taskEffect_coordinator effect]
      exact ⟨tidy.part, taskEffect_tidy tidy effect⟩
  obtain ⟨length, present⟩ := tidy.isDirectory
  exact
    { slots := onlyOffer_slots tidy.slots admitted (peerStep_slots stepped)
      isDirectory :=
        ⟨length, peerStep_keepsDirectories stepped _ length present⟩
      jobs :=
        peerStep_jobs tidy.jobs (writesWithin_stable (Near saveDir))
          (fun applied isApplied =>
            have same :=
              onlyOffer_applied tidy.slots admitted isApplied
            (applied_leads near same.1 same.2.1 same.2.2).within)
          stepped
      opened := peerStep_opened tidy.opened stepped
      part := partAndInside.1
      inside := partAndInside.2 }

theorem containedIn_of_near
    (near : NearOffer saveDir name size) :
    ContainedIn saveDir name size := by
  intro files labels peer isDirectory run
  have tidy : peer.Tidy saveDir name size := by
    refine
      run.preserves (Peer.Tidy saveDir name size)
        (fun _ _ _ tidy admitted stepped =>
          peerStep_tidy near tidy admitted stepped) ?_
    exact
      { slots := ⟨nofun, nofun, nofun⟩
        isDirectory := isDirectory
        jobs := initial_jobs files
        opened := nofun
        part := nofun
        inside := nofun }
  exact tidy.inside

/-! ## Offers that escape -/

theorem nearOffer_of_condition
    (trims : TrimsToItself saveDir)
    (condition :
      size < resumeThresholdBytes ∨ HasFinalName name ∨
        fileName (components saveDir) = none) :
    NearOffer saveDir name size := by
  cases final : fileName (components (trimControls name)) with
  | some last =>
      have normal := isNormalName_fileName final
      have dest := destinationPath_named saveDir final
      rw [trims] at dest
      refine ⟨?_, fun _ => ?_⟩
      · exact Or.inl ⟨last, normal, Or.inl dest⟩
      · rw [dest, getPartPath_named _ normal]
        exact Or.inl ⟨last, normal, Or.inr rfl⟩
  | none =>
      have dest := destinationPath_unnamed saveDir final
      rw [trims] at dest
      refine ⟨Or.inr dest, ?_⟩
      intro large
      have unnamed : fileName (components saveDir) = none := by
        rcases condition with small | hasFinal | unnamed
        · exact absurd large (Nat.not_le_of_lt small)
        · rw [HasFinalName, final] at hasFinal
          cases hasFinal
        · exact unnamed
      rw [dest, getPartPath_unnamed unnamed]
      exact Or.inl ⟨partialFileSuffix, by decide, Or.inl rfl⟩

/-- A file system in which these paths and all their ancestors are
directories and nothing else exists. -/
def directoriesUpTo (paths : List UnixPath) : Files := fun path =>
  if paths.any fun other => path.isPrefixOf other then
    some (.directory 4096)
  else none

theorem directoriesUpTo_prefix
    {paths : List UnixPath} {path other : UnixPath}
    (member : other ∈ paths) (isPrefix : path <+: other) :
    directoriesUpTo paths path = some (.directory 4096) := by
  rw [directoriesUpTo, if_pos]
  exact
    List.any_eq_true.mpr
      ⟨other, member, List.isPrefixOf_iff_prefix.mpr isPrefix⟩

theorem directoriesUpTo_other
    {paths : List UnixPath} {path : UnixPath}
    (noPrefix : ∀ other ∈ paths, ¬ path <+: other) :
    directoriesUpTo paths path = none := by
  rw [directoriesUpTo, if_neg]
  intro found
  obtain ⟨other, member, isPrefix⟩ := List.any_eq_true.mp found
  exact
    noPrefix other member (List.isPrefixOf_iff_prefix.mp isPrefix)

/-- The job of an accept without resume. -/
def freshJob (saveDir name : String) (size : Nat) : RecvJob where
  destPath := destinationPath saveDir name
  fileSize := size
  checksum := false
  resumeOffset := 0
  usePart := decide (resumeThresholdBytes ≤ size)
  offer := 0

/-- Offer, accept, and open the target. -/
def openingRun (saveDir name : String) (size : Nat) : List PeerLabel :=
  [.control ⟨.metadata name size false false, 0⟩ .none,
    .command (.acceptFile saveDir false false) .none,
    .recv .start,
    .recv (.openTarget .opened)]

theorem handleAccept_withoutResume
    (peer : Peer) {accept : PendingAccept} (faults : Faults)
    (noResume : accept.resume = false) :
    peer.handleAccept accept name size faults =
      (peer.withPartPath
        (if resumeThresholdBytes ≤ size then
          some (getPartPath (destinationPath accept.saveDir name))
        else none)).acceptFresh
          { destPath := destinationPath accept.saveDir name
            fileSize := size
            checksum := accept.checksum
            resumeOffset := 0
            usePart := decide (resumeThresholdBytes ≤ size)
            offer := peer.coordinator.offeredNumber } := by
  simp only [Peer.handleAccept, noResume, Bool.and_false]
  by_cases large : resumeThresholdBytes ≤ size
  · simp only [if_pos large, decide_eq_true large]
    rfl
  · simp only [if_neg large, decide_eq_false large]

/-- The peer after the offer and its accept. -/
def acceptedPeer (files : Files) (saveDir name : String) (size : Nat) :
    Peer :=
  ((Peer.initial files).handleControl
      ⟨.metadata name size false false, 0⟩ .none).handleCommand
    (.acceptFile saveDir false false) .none

theorem acceptedPeer_eq
    (files : Files) (saveDir name : String) (size : Nat) :
    (acceptedPeer files saveDir name size).recvQueue =
        [freshJob saveDir name size] ∧
      (acceptedPeer files saveDir name size).receiver = .idle ∧
      (acceptedPeer files saveDir name size).files = files := by
  have accepted :
      acceptedPeer files saveDir name size = _ :=
    handleAccept_withoutResume
      (((Peer.initial files).handleControl
        ⟨.metadata name size false false, 0⟩ .none).clearOffer)
      .none rfl
  rw [accepted]
  exact ⟨rfl, rfl, rfl⟩

/-- The task takes the job. -/
def openingPeer (files : Files) (saveDir name : String) (size : Nat) :
    Peer :=
  { acceptedPeer files saveDir name size with
    recvQueue := []
    receiver := .opening (freshJob saveDir name size) }

theorem acceptedPeer_starts
    (files : Files) (saveDir name : String) (size : Nat) :
    peerStep (acceptedPeer files saveDir name size) (.recv .start) =
      some (openingPeer files saveDir name size) := by
  obtain ⟨queue, idle, _⟩ := acceptedPeer_eq files saveDir name size
  simp only [peerStep, Peer.recvStep, idle, queue, openingPeer]

theorem openingPeer_opens
    {files : Files}
    (ensured :
      files.ensureDirectories (freshJob saveDir name size).ancestors =
        some files)
    (absent : files (freshJob saveDir name size).targetWritePath = none) :
    ∃ peer,
      peerStep (openingPeer files saveDir name size)
          (.recv (.openTarget .opened)) = some peer ∧
        (freshJob saveDir name size).targetWritePath ∈ peer.touched := by
  have sameFiles : (openingPeer files saveDir name size).files = files :=
    (acceptedPeer_eq files saveDir name size).2.2
  have created :
      (freshJob saveDir name size).openTarget files =
        some
          (files.put (freshJob saveDir name size).targetWritePath []) :=
    FileStore.create_of_absent absent
  have stepped :
      peerStep (openingPeer files saveDir name size)
          (.recv (.openTarget .opened)) =
        (openingPeer files saveDir name size).openTarget
          (freshJob saveDir name size) .opened := rfl
  rw [stepped]
  unfold Peer.openTarget
  rw [sameFiles, ensured]
  simp only [created, Option.map_some]
  exact
    ⟨_, rfl, List.mem_append_right _ (List.mem_singleton.mpr rfl)⟩

/-- Where the target does not exist yet, the run touches it. -/
theorem openingRun_touches
    {files : Files}
    (ensured :
      files.ensureDirectories (freshJob saveDir name size).ancestors =
        some files)
    (absent : files (freshJob saveDir name size).targetWritePath = none) :
    ∃ peer,
      Run peerStep (fun _ => OnlyOffer saveDir name size)
          (Peer.initial files) (openingRun saveDir name size) peer ∧
        (freshJob saveDir name size).targetWritePath ∈ peer.touched := by
  obtain ⟨peer, opened, touched⟩ := openingPeer_opens ensured absent
  have started := acceptedPeer_starts files saveDir name size
  exact
    ⟨peer,
      Run.cons ⟨rfl, rfl⟩ rfl
        (Run.cons rfl rfl
          (Run.cons trivial started (Run.single trivial opened))),
      touched⟩

/-- Only the save directory and the parent of the destination exist. -/
def bareStore (saveDir name : String) : Files :=
  directoriesUpTo
    [components saveDir, (destinationPath saveDir name).dropLast]

theorem bareStore_saveDir (saveDir name : String) :
    bareStore saveDir name (components saveDir) =
      some (.directory 4096) :=
  directoriesUpTo_prefix List.mem_cons_self List.prefix_rfl

theorem bareStore_ensured (saveDir name : String) (size : Nat) :
    (bareStore saveDir name).ensureDirectories
        (freshJob saveDir name size).ancestors =
      some (bareStore saveDir name) := by
  apply FileStore.ensureDirectories_of_directories
  intro path member
  exact
    ⟨4096,
      directoriesUpTo_prefix
        (List.mem_cons_of_mem _ List.mem_cons_self)
        (ancestors_below member)⟩

/-- An offer escapes when its target is a new path outside and is no ancestor
of the save directory. -/
theorem not_containedIn
    (outside :
      ¬ DirectlyInside saveDir
        (freshJob saveDir name size).targetWritePath)
    (notAbove :
      ¬ (freshJob saveDir name size).targetWritePath <+:
        components saveDir)
    (notParent :
      ¬ (freshJob saveDir name size).targetWritePath <+:
        (destinationPath saveDir name).dropLast) :
    ¬ ContainedIn saveDir name size := by
  intro contained
  have absent :
      bareStore saveDir name (freshJob saveDir name size).targetWritePath =
        none := by
    apply directoriesUpTo_other
    intro other member
    rcases List.mem_cons.mp member with rfl | last
    · exact notAbove
    · rw [List.mem_singleton.mp last]
      exact notParent
  obtain ⟨peer, run, touched⟩ :=
    openingRun_touches (bareStore_ensured saveDir name size) absent
  exact
    outside
      (contained _ _ peer ⟨4096, bareStore_saveDir saveDir name⟩ run _
        touched)

/-- A large offer with no name left is staged next to the save directory. -/
theorem unnamed_escapes
    (trims : TrimsToItself saveDir)
    (large : resumeThresholdBytes ≤ size)
    (unnamed : fileName (components (trimControls name)) = none)
    {last : String} (named : fileName (components saveDir) = some last) :
    ¬ ContainedIn saveDir name size := by
  have split := fileName_eq_some named
  have dest : destinationPath saveDir name = components saveDir := by
    rw [destinationPath_unnamed saveDir unnamed, trims]
  have normal := isNormalName_fileName named
  have target :
      (freshJob saveDir name size).targetWritePath =
        (components saveDir).dropLast ++
          [.normal (last ++ partialFileSuffix)] := by
    rw [targetWritePath_part (decide_eq_true large)]
    change getPartPath (destinationPath saveDir name) = _
    rw [dest, split, getPartPath_named _ normal, List.dropLast_concat]
  have length :
      (freshJob saveDir name size).targetWritePath.length =
        (components saveDir).length := by
    rw [target, List.length_append, split]
    simp
  apply not_containedIn
  · rintro ⟨other, _, inside | inside⟩
    · rw [inside, List.length_append, List.length_singleton] at length
      omega
    · rw [inside, List.length_append, List.length_singleton] at length
      omega
  · intro above
    have same := above.eq_of_length length
    rw [target, split] at same
    have lasts := List.append_cancel_left
      (same.trans (by rw [List.dropLast_concat]))
    have names : last ++ partialFileSuffix = last := by
      simpa using lasts
    have lengths := congrArg String.length names
    rw [String.length_append] at lengths
    have suffix : partialFileSuffix.length = 10 := by decide
    omega
  · intro below
    have shorter := below.length_le
    rw [length, dest, List.length_dropLast, split] at shorter
    simp at shorter

theorem target_of_small
    (small : size < resumeThresholdBytes) :
    (freshJob saveDir name size).targetWritePath =
      destinationPath saveDir name := by
  have direct : (freshJob saveDir name size).usePart = false :=
    decide_eq_false (Nat.not_le_of_lt small)
  rw [targetWritePath_dest direct]
  rfl

/-- When trimming changes the directory, a plain name leads out of it, unless
it happens to name an ancestor of the directory. -/
theorem plainName_escapes
    (changes : ¬ TrimsToItself saveDir)
    (final : fileName (components (trimControls name)) = some name)
    (notAbove :
      ¬ components (trimControls saveDir) ++ [.normal name] <+:
        components saveDir) :
    ¬ ContainedIn saveDir name 0 := by
  have small : 0 < resumeThresholdBytes := resumeThresholdBytes_pos
  have dest := destinationPath_named saveDir final
  apply not_containedIn
  · rw [target_of_small small, dest]
    rintro ⟨other, _, inside | inside⟩
    · exact changes (List.append_inj_left' inside rfl)
    · exact changes (List.append_inj_left' inside rfl)
  · rw [target_of_small small, dest]
    exact notAbove
  · rw [target_of_small small, dest, List.dropLast_concat]
    intro below
    have shorter := below.length_le
    rw [List.length_append, List.length_singleton] at shorter
    omega

/-- Of two plain names, one is no ancestor of the directory. -/
theorem trimmed_escapes
    (changes : ¬ TrimsToItself saveDir) :
    ∃ name, (fileName (components name)).isSome = true ∧
      ¬ ContainedIn saveDir name 0 := by
  by_cases above :
      components (trimControls saveDir) ++ [.normal "a"] <+:
        components saveDir
  · refine
      ⟨"b", by decide +kernel,
        plainName_escapes changes (by decide +kernel) ?_⟩
    intro alsoAbove
    have comparable :=
      List.prefix_of_prefix_length_le above alsoAbove (by simp)
    have same := comparable.eq_of_length (by simp)
    have lasts := List.append_cancel_left same
    exact absurd lasts (by decide)
  · exact
      ⟨"a", by decide +kernel,
        plainName_escapes changes (by decide +kernel) above⟩

/-- When trimming leaves the save directory as it is, an offer is contained if
and only if it is small, or something is left of its name, or the directory
has no last component that the staging path could replace.  When trimming
changes the directory, not every offer is contained. -/
theorem contained_exactly (saveDir : String) :
    (TrimsToItself saveDir →
      ∀ name size,
        ContainedIn saveDir name size ↔
          (size < resumeThresholdBytes ∨ HasFinalName name ∨
            fileName (components saveDir) = none)) ∧
      (¬ TrimsToItself saveDir →
        ∃ name size,
          (fileName (components name)).isSome = true ∧
            ¬ ContainedIn saveDir name size) := by
  refine ⟨?_, ?_⟩
  · intro trims name size
    constructor
    · intro contained
      by_contra violated
      obtain ⟨notSmall, notRest⟩ := not_or.mp violated
      obtain ⟨noFinal, named⟩ := not_or.mp notRest
      obtain ⟨last, isLast⟩ := Option.ne_none_iff_exists'.mp named
      have unnamed :
          fileName (components (trimControls name)) = none :=
        Option.not_isSome_iff_eq_none.mp noFinal
      exact
        unnamed_escapes trims (Nat.le_of_not_lt notSmall) unnamed isLast
          contained
    · exact fun condition =>
        containedIn_of_near (nearOffer_of_condition trims condition)
  · intro changes
    obtain ⟨name, accepted, escapes⟩ := trimmed_escapes changes
    exact ⟨name, 0, accepted, escapes⟩

/-- A name of one control character, offered with 20 MiB, is accepted by a
worker that saves to `/srv/in` and staged in `/srv/in.quic-part`. -/
theorem control_name_escapes :
    ¬ ∀ (config : WorkerConfig) (files : Files) (name : String)
        (size : Nat) (offeredResume offeredChecksum : Bool),
        (∃ checksum resume,
          config.answerOffer files name offeredResume offeredChecksum =
            .issued (.acceptFile config.saveDir checksum resume)) →
          ContainedIn config.saveDir name size := by
  intro contained
  have accepted :=
    contained ⟨"/srv/in", false, false, .overwrite⟩ (fun _ => none)
      "\x01" resumeThresholdBytes false false
      ⟨false, false, by decide +kernel⟩
  have named : fileName (components "/srv/in") = some "in" := by
    decide +kernel
  refine unnamed_escapes ?_ (Nat.le_refl _) ?_ named accepted
  · rw [TrimsToItself]
    decide +kernel
  · decide +kernel

end Quiczilla
