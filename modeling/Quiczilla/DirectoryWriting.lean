import Quiczilla.DirectoryApply
import Quiczilla.DirectoryWalk

/-!
# What a directory send has written

A send can stop in the middle of a frame.  Whatever it has written then is a
part of a well-formed stream, and all of one only if that stream describes the
source.
-/

namespace Quiczilla

open Foundation

/-! ## A send that can stop in the middle of a frame -/

inductive DirectoryWriteLabel where
  | next (label : DirectorySendLabel)
  | stopped (label : DirectorySendLabel) (count : Nat) (reason : String)

/-- The labels of a send without errors. -/
def DirectorySendLabel.proceeds : DirectorySendLabel → Bool
  | .openStream => true
  | .turn _ _ => true
  | _ => false

/-- An error after so many bytes of what the step would have written. -/
def DirectorySender.stop
    (sender next : DirectorySender) (count : Nat) (reason : String) :
    DirectorySender :=
  { sender with
    written :=
      sender.written ++
        (next.written.drop sender.written.length).take count
    phase := .failed reason }

def directoryWriteStep (rootName : EntryName) (sender : DirectorySender) :
    DirectoryWriteLabel → Option DirectorySender
  | .next label =>
      if label.proceeds then directorySendStep rootName sender label
      else none
  | .stopped label count reason =>
      if label.proceeds then
        (directorySendStep rootName sender label).map fun next =>
          sender.stop next count reason
      else none

/-! ## What has been written -/

/-- The bytes are a part of a well-formed stream, and the whole of it only if
that stream describes the source. -/
def Announced
    (tree : SourceTree) (checksum : Bool) (written : List UInt8) : Prop :=
  ∃ stream : DirectoryStream, written <+: stream.bytes ∧
    (written = stream.bytes →
      tree.name.text = some stream.rootName ∧
        describedBy stream.frames = tree.listing ∧
          ∀ frame ∈ stream.frames, frame.Digested checksum)

section Announcing

variable {tree : SourceTree} {checksum : Bool}

theorem Announced.of_prefix
    {written whole : List UInt8} (announced : Announced tree checksum whole)
    (isPart : written <+: whole) : Announced tree checksum written := by
  obtain ⟨stream, inStream, described⟩ := announced
  refine ⟨stream, isPart.trans inStream, ?_⟩
  intro isWhole
  apply described
  rw [isWhole] at isPart
  exact inStream.eq_of_length_le isPart.length_le

theorem announced_nil (tree : SourceTree) (checksum : Bool) :
    Announced tree checksum [] :=
  ⟨nestedStream, List.nil_prefix, fun same => by cases same⟩

theorem wired_listing (plain : tree.NoBackslash) :
    tree.listing.wired = tree.listing := by
  rw [Listing.wired]
  conv_rhs => rw [← List.map_id tree.listing]
  apply List.map_congr_left
  rintro ⟨path, item⟩ member
  have isHeld := mem_listing_iff.mp member
  obtain ⟨notNil, normal⟩ := normal_of_holds isHeld
  have same :=
    wirePath_eq notNil normal (plain.entries path item isHeld)
  exact congrArg (·, item) same

theorem fits_left
    {first second : Listing} (fits : (first ++ second).stats.Fits) :
    first.stats.Fits := by
  obtain ⟨files, directories, bytes⟩ := fits
  simp only [Listing.stats, List.filter_append, List.length_append,
    List.map_append, List.sum_append] at files directories bytes
  refine ⟨?_, ?_, ?_⟩
  · exact Nat.lt_of_le_of_lt (Nat.le_add_right _ _) files
  · refine Nat.lt_of_le_of_lt ?_ directories
    exact Nat.add_le_add_left (Nat.le_add_right _ _) 1
  · exact Nat.lt_of_le_of_lt (Nat.le_add_right _ _) bytes

/-- The frames so far and their totals are a stream of their own. -/
theorem stream_of_writes
    {sender : DirectorySender} {ending : List UInt8}
    (plain : tree.NoBackslash) (fits : tree.listing.stats.Fits)
    (holds : WritesFrames tree checksum sender ending) :
    ∃ stream : DirectoryStream,
      stream.frames = sender.frames ∧
        tree.name.text = some stream.rootName ∧
          sender.written =
            encodeStart stream.rootName ++
              (encodeFrames stream.frames ++ ending) := by
  obtain ⟨text, wire, isText, isWire, bytes⟩ := holds.written
  obtain ⟨spelled, accepted⟩ := pathToWire_ok isWire
  have sameText : wire = text := by
    rw [spelled, wireText_eq (plain.root text isText)]
  subst sameText
  have noDrive : ¬Platform.unix.HasDrive wire := by
    rintro ⟨isWindows, _⟩
    cases isWindows
  have single : (Platform.unix.parse wire).componentCount = 1 := by
    rw [Platform.parse_of_no_drive (plain.root wire isText) noDrive,
      components_of_normal (tree.name.legal wire isText)]
    rfl
  have progress := holds.progress
  rw [wired_listing plain] at progress
  have described : (describedBy sender.frames).stats.Fits := by
    rw [← progress] at fits
    exact fits_left fits
  exact
    ⟨⟨wire, sender.frames, accepted, single, holds.wellFormed, described⟩,
      rfl, isText, bytes⟩

/-- Without the totals the stream is not complete. -/
theorem announced_of_writes
    {sender : DirectorySender} (plain : tree.NoBackslash)
    (fits : tree.listing.stats.Fits)
    (holds : WritesFrames tree checksum sender []) :
    Announced tree checksum sender.written := by
  obtain ⟨stream, isFrames, isText, bytes⟩ :=
    stream_of_writes plain fits holds
  have whole :
      stream.bytes =
        sender.written ++ encodeEnd (describedBy stream.frames).stats := by
    rw [bytes, DirectoryStream.bytes, List.append_nil, List.append_assoc]
  refine ⟨stream, ?_, ?_⟩
  · rw [whole]
    exact List.prefix_append _ _
  · intro same
    rw [whole] at same
    have isNothing := List.self_eq_append_right.mp same
    cases isNothing

theorem announced_of_finished
    {sender : DirectorySender} (plain : tree.NoBackslash)
    (fits : tree.listing.stats.Fits) (isEmpty : sender.stack = [])
    (holds :
      WritesFrames tree checksum sender
        (encodeEnd (statsOf sender.frames))) :
    Announced tree checksum sender.written := by
  obtain ⟨stream, isFrames, isText, bytes⟩ :=
    stream_of_writes plain fits holds
  have whole : stream.bytes = sender.written := by
    rw [bytes, DirectoryStream.bytes, encodeEnd_described stream.fits,
      isFrames]
  refine ⟨stream, ⟨[], ?_⟩, ?_⟩
  · exact (List.append_nil _).trans whole.symm
  · intro _
    refine ⟨isText, ?_, ?_⟩
    · rw [isFrames]
      exact describedBy_eq holds isEmpty plain.entries
    · rw [isFrames]
      exact holds.digested

end Announcing

/-! ## The sender -/

section Sending

variable {tree : SourceTree} {profile : StorageProfile} {checksum : Bool}
  {sender next : DirectorySender}

theorem prefix_write (sender : DirectorySender) (frame : DirectoryFrame) :
    sender.written <+: (sender.write frame).written :=
  List.prefix_append _ _

theorem prefix_rollPack (sender : DirectorySender) (size : Nat) :
    sender.written <+: (sender.rollPack size).written := by
  rw [DirectorySender.rollPack]
  split
  · exact (prefix_write sender .packEnd).trans (List.prefix_append _ _)
  · exact List.prefix_rfl

/-- A turn writes behind what is there. -/
theorem prefix_turn
    (sender : DirectorySender) (source : String) (sizes : Nat → Nat) :
    sender.written <+: (sender.turn source sizes).written := by
  rw [DirectorySender.turn]
  split
  · exact (prefix_write sender .packEnd).trans (List.prefix_append _ _)
  · exact List.prefix_rfl
  · exact List.prefix_rfl
  · split <;> exact List.prefix_rfl
  · split
    · exact List.prefix_rfl
    · exact List.prefix_append _ _
  · split
    · exact List.prefix_rfl
    · rename_i size content rest below isStack text wire accepted
      split
      · exact prefix_rollPack sender _
      · exact (prefix_rollPack sender _).trans (List.prefix_append _ _)

/-- A turn that fails has written no more than the frames of packs. -/
theorem written_of_failed_turn
    {source : String} {sizes : Nat → Nat} {reason : String}
    (isWalking : sender.phase = .walking)
    (failed : (sender.turn source sizes).phase = .failed reason) :
    (sender.turn source sizes).written = sender.written ∨
      ∃ size,
        (sender.turn source sizes).written =
          (sender.rollPack size).written := by
  rw [DirectorySender.turn] at failed ⊢
  split at failed
  · cases failed
  · exact Or.inl rfl
  · exact Or.inl rfl
  · split at failed <;> exact Or.inl rfl
  · split at failed
    · exact Or.inl rfl
    · have isPhase := isWalking.symm.trans failed
      cases isPhase
  · split at failed
    · exact Or.inl rfl
    · split at failed
      · exact Or.inr ⟨_, rfl⟩
      · have isPhase :=
          ((rollPack_phase sender _).trans isWalking).symm.trans failed
        cases isPhase

theorem announced_turn
    (plain : tree.NoBackslash) (fits : tree.listing.stats.Fits)
    (isWalking : sender.phase = .walking)
    (holds : WritesFrames tree checksum sender []) (source : String)
    (sizes : Nat → Nat) :
    Announced tree checksum (sender.turn source sizes).written := by
  have sends :=
    @sendsTree_turn tree .auto checksum sender isWalking holds source
      sizes
  cases isPhase : (sender.turn source sizes).phase with
  | failed reason =>
      obtain same | ⟨size, same⟩ :=
        written_of_failed_turn isWalking isPhase
      · rw [same]
        exact announced_of_writes plain fits holds
      · rw [same]
        exact announced_of_writes plain fits (holds.rollPack size)
  | walking =>
      rw [SendsTree, isPhase] at sends
      exact announced_of_writes plain fits sends
  | done =>
      rw [SendsTree, isPhase] at sends
      exact announced_of_finished plain fits sends.1 sends.2
  | opening =>
      rw [SendsTree, isPhase] at sends
      rw [sends]
      exact announced_nil tree checksum

theorem announced_openStream
    (plain : tree.NoBackslash) (fits : tree.listing.stats.Fits)
    (isStart : sender = .start tree.entries profile checksum) :
    Announced tree checksum (sender.openStream tree.name).written := by
  have sends := sendsTree_openStream isStart
  rw [DirectorySender.openStream] at sends ⊢
  split
  · rw [isStart]
    exact announced_nil tree checksum
  · rename_i text isText
    split
    · rw [isStart]
      exact announced_nil tree checksum
    · rename_i wire isWire
      simp only [isText, isWire] at sends
      exact announced_of_writes plain fits sends

/-- The sender, and what it has written. -/
structure SendsPart
    (tree : SourceTree) (profile : StorageProfile) (checksum : Bool)
    (sender : DirectorySender) : Prop where
  sends : SendsTree tree profile checksum sender
  announced : Announced tree checksum sender.written

theorem sendsPart_proceeds
    (plain : tree.NoBackslash) (fits : tree.listing.stats.Fits)
    {label : DirectorySendLabel}
    (holds : SendsPart tree profile checksum sender)
    (proceeds : label.proceeds = true)
    (stepped : directorySendStep tree.name sender label = some next) :
    SendsPart tree profile checksum next ∧
      sender.written <+: next.written := by
  have sends := holds.sends
  have stays := sendsTree_step sends stepped
  cases label with
  | openStream =>
      rw [directorySendStep] at stepped
      split at stepped
      · rename_i isOpening
        cases stepped
        rw [SendsTree, isOpening] at sends
        refine ⟨⟨stays, announced_openStream plain fits sends⟩, ?_⟩
        rw [sends]
        exact List.nil_prefix
      · cases stepped
  | turn source sizes =>
      rw [directorySendStep] at stepped
      split at stepped
      · rename_i isWalking
        cases stepped
        rw [SendsTree, isWalking] at sends
        exact
          ⟨⟨stays, announced_turn plain fits isWalking sends source
              sizes⟩,
            prefix_turn sender source sizes⟩
      · cases stepped
  | fault reason => cases proceeds
  | faultInFile reason => cases proceeds

theorem sendsPart_write
    (plain : tree.NoBackslash) (fits : tree.listing.stats.Fits)
    {label : DirectoryWriteLabel}
    (holds : SendsPart tree profile checksum sender)
    (stepped : directoryWriteStep tree.name sender label = some next) :
    SendsPart tree profile checksum next ∧
      sender.written <+: next.written := by
  cases label with
  | next label =>
      rw [directoryWriteStep] at stepped
      split at stepped
      · rename_i proceeds
        exact sendsPart_proceeds plain fits holds proceeds stepped
      · cases stepped
  | stopped label count reason =>
      rw [directoryWriteStep] at stepped
      split at stepped
      · rename_i proceeds
        obtain ⟨whole, taken, rfl⟩ := Option.map_eq_some_iff.mp stepped
        obtain ⟨after, isPrefix⟩ :=
          sendsPart_proceeds plain fits holds proceeds taken
        obtain ⟨rest, isRest⟩ := isPrefix
        have dropped :
            whole.written.drop sender.written.length = rest := by
          rw [← isRest, List.drop_left]
        have isWritten :
            (sender.stop whole count reason).written =
              sender.written ++ rest.take count := by
          rw [← dropped]
          rfl
        refine ⟨⟨trivial, after.announced.of_prefix ?_⟩, ?_⟩
        · rw [isWritten, ← isRest]
          exact
            (List.prefix_append_right_inj _).mpr (List.take_prefix _ _)
        · rw [isWritten]
          exact List.prefix_append _ _
      · cases stepped

end Sending

end Quiczilla
