import Quiczilla.KeptDestination

/-!
# Resuming another file

What the receiving side keeps need not be a part of the source.  The
fingerprint tells the two apart if they differ in their first 64 KiB, and with
a checksum on both sides the digest of the whole does behind them.  Where
neither does, the two files are mixed.
-/

namespace Quiczilla

open Foundation

/-- What is kept is a beginning of the source, or the fingerprint tells the two
apart, or the digest of what would become of it does. -/
inductive Exchange.Discerns
    (exchange : Exchange) (kept source : List UInt8) : Prop
  | front (isFront : kept <+: source)
  | fingerprint (differ : fingerprintOf kept ≠ fingerprintOf source)
  | digest
      (offers : exchange.offer.checksum = true)
      (accepts : exchange.accept.checksum = true)
      (differ :
        sha256Hex (kept ++ source.drop kept.length) ≠ sha256Hex source)

/-- A step that does not compare two missing hashes, and that can compute all
hashes where it takes a digest to tell what is kept from the source. -/
def Exchange.Careful
    (exchange : Exchange) (kept source : List UInt8) (link : Link)
    (label : LinkLabel) : Prop :=
  exchange.Compares link label ∧
    (¬kept <+: source → fingerprintOf kept = fingerprintOf source →
      label.hashes = true)

/-- A completed exchange leaves the source, and has resumed a part of the
source only. -/
structure Exchange.NeverMixes
    (exchange : Exchange) (kept source : List UInt8) (link : Link) :
    Prop where
  restarts :
    ¬kept <+: source →
      .transferComplete .completed ∈ link.left.events →
        .resumeOk ∉ link.right.handled
  leaves :
    .transferComplete .completed ∈ link.left.events →
      link.right.files (exchange.applied source.length).destPath =
        some (.file source)

section Mixing

variable {exchange : Exchange} {leftFiles rightFiles : Files}
  {source dest : List UInt8} {labels : List LinkLabel} {link : Link}

/-- A completed exchange has resumed a part of the source only. -/
theorem front_of_splices
    (large : resumeThresholdBytes ≤ source.length)
    (isSource :
      leftFiles (components exchange.offer.path) = some (.file source))
    (discerns :
      exchange.Discerns ((exchange.applied source.length).kept rightFiles)
        source)
    (run :
      Run linkStep
        (exchange.Careful ((exchange.applied source.length).kept rightFiles)
          source)
        (.initial leftFiles rightFiles) labels link)
    (completed : .transferComplete .completed ∈ link.left.events)
    {content : List UInt8}
    (present :
      link.right.files (exchange.applied source.length).destPath =
        some (.file content))
    (splices : exchange.Splices rightFiles source link content) :
    (exchange.applied source.length).kept rightFiles <+: source := by
  by_contra apart
  cases discerns with
  | front isFront => exact apart isFront
  | fingerprint differ => exact differ splices.fingerprint
  | digest offers accepts differ =>
      have verifies :=
        run.weaken fun _ _ careful =>
          (⟨careful.1.1, careful.2 apart splices.fingerprint⟩ :
            exchange.Verifies _ _)
      obtain ⟨other, isOther, isWhole | mixes⟩ :=
        content_of_completed large isSource verifies completed
      · rw [present] at isOther
        apply differ
        rw [← splices.whole, Node.file.inj (Option.some.inj isOther),
          isWhole]
      · rw [present] at isOther
        apply differ
        rw [← splices.whole, Node.file.inj (Option.some.inj isOther)]
        exact mixes.digest offers accepts

theorem never_mixes_of_discerns
    (large : resumeThresholdBytes ≤ source.length)
    (isSource :
      leftFiles (components exchange.offer.path) = some (.file source))
    (discerns :
      exchange.Discerns ((exchange.applied source.length).kept rightFiles)
        source)
    (run :
      Run linkStep
        (exchange.Careful ((exchange.applied source.length).kept rightFiles)
          source)
        (.initial leftFiles rightFiles) labels link) :
    exchange.NeverMixes ((exchange.applied source.length).kept rightFiles)
      source link := by
  have compares := run.weaken fun _ _ careful => careful.1
  have received (completed : .transferComplete .completed ∈ link.left.events) :
      ∃ content,
        link.right.files (exchange.applied source.length).destPath =
            some (.file content) ∧
          (.resumeOk ∉ link.right.handled ∧ content = source ∨
            exchange.Splices rightFiles source link content) := by
    obtain ⟨runs, vouched⟩ := vouched_of_run large isSource compares
    exact
      spliced_of_received large isSource runs vouched
        (receipts_of_completed isSource
          (compares.weaken fun _ _ admitted => admitted.1) completed)
  constructor
  · intro apart completed
    obtain ⟨content, present, ⟨fresh, -⟩ | splices⟩ := received completed
    · exact fresh
    · exact
        absurd
          (front_of_splices large isSource discerns run completed present
            splices)
          apart
  · intro completed
    obtain ⟨content, present, ⟨-, isWhole⟩ | splices⟩ := received completed
    · rw [present, isWhole]
    · have isFront :=
        front_of_splices large isSource discerns run completed present
          splices
      rw [present, splices.whole, List.prefix_iff_eq_append.mp isFront]

/-- A finished file that nothing tells from the source is kept. -/
theorem mixes_of_not_discerns
    (keeps : exchange.CanKeep leftFiles rightFiles source dest)
    (alike : ¬exchange.Discerns dest source) :
    ∃ labels link,
      Run linkStep exchange.Resumes (.initial leftFiles rightFiles) labels
          link ∧
        ¬exchange.NeverMixes dest source link := by
  have same : fingerprintOf dest = fingerprintOf source := by
    by_contra differ
    exact alike (.fingerprint differ)
  have agree :
      exchange.offer.checksum = true → exchange.accept.checksum = true →
        sha256Hex dest = sha256Hex source := by
    intro offers accepts
    by_contra differ
    apply alike
    refine .digest offers accepts ?_
    rwa [keeps.sized, List.drop_length, List.append_nil]
  obtain ⟨labels, link, run, completed, -, files⟩ :=
    kept_run keeps same agree
  refine ⟨labels, link, run, ?_⟩
  intro never
  have isWhole := never.leaves completed
  rw [files, keeps.isDest] at isWhole
  apply alike
  rw [Node.file.inj (Option.some.inj isWhole)]
  exact .front List.prefix_rfl

/-- A cold resume of a large file mixes nothing if what the receiving side
keeps can be told from the source, and a finished file that cannot is mixed by
some exchange. -/
theorem cold_resume_never_mixes
    (large : resumeThresholdBytes ≤ source.length)
    (isSource :
      leftFiles (components exchange.offer.path) = some (.file source)) :
    (exchange.Discerns ((exchange.applied source.length).kept rightFiles)
        source →
      ∀ labels link,
        Run linkStep
            (exchange.Careful
              ((exchange.applied source.length).kept rightFiles) source)
            (.initial leftFiles rightFiles) labels link →
          exchange.NeverMixes
            ((exchange.applied source.length).kept rightFiles) source
            link) ∧
      ∀ dest,
        exchange.CanKeep leftFiles rightFiles source dest →
          (exchange.applied source.length).kept rightFiles = dest ∧
            (¬exchange.Discerns dest source →
              ∃ labels link,
                Run linkStep exchange.Resumes
                    (.initial leftFiles rightFiles) labels link ∧
                  ¬exchange.NeverMixes dest source link) := by
  constructor
  · intro discerns labels link run
    exact never_mixes_of_discerns large isSource discerns run
  · intro dest keeps
    exact
      ⟨kept_dest keeps.noPart keeps.isDest keeps.sized,
        mixes_of_not_discerns keeps⟩

/-- A finished file that is the source is kept. -/
theorem cold_resume_never_mixes_zeros :
    ∃ labels link,
      Run linkStep
          (resumingExchange.Careful
            ((resumingExchange.applied (zerosThen 0).length).kept
              (finishedFiles (zerosThen 0)))
            (zerosThen 0))
          (.initial (soleSource (zerosThen 0)) (finishedFiles (zerosThen 0)))
          labels link ∧
        .transferComplete .completed ∈ link.left.events ∧
          link.right.files
              (resumingExchange.applied (zerosThen 0).length).destPath =
            some (.file (zerosThen 0)) := by
  have keeps := zerosThen_canKeep 0
  obtain ⟨labels, link, run, completed, -⟩ :=
    kept_run keeps rfl (fun _ _ => rfl)
  have careful :=
    run.weaken fun _ _ resumes =>
      (⟨Exchange.compares_of_verifies resumes.1,
          fun _ _ => resumes.1.2⟩ :
        resumingExchange.Careful
          ((resumingExchange.applied (zerosThen 0).length).kept
            (finishedFiles (zerosThen 0)))
          (zerosThen 0) _ _)
  have isKept := kept_dest keeps.noPart keeps.isDest keeps.sized
  have discerns :
      resumingExchange.Discerns
        ((resumingExchange.applied (zerosThen 0).length).kept
          (finishedFiles (zerosThen 0)))
        (zerosThen 0) := by
    rw [isKept]
    exact .front List.prefix_rfl
  have never :=
    (cold_resume_never_mixes keeps.large keeps.isSource).1 discerns labels
      link careful
  exact ⟨labels, link, careful, completed, never.leaves completed⟩

/-- A finished file with another end than the source is kept as well. -/
theorem cold_resume_mixes_zeros :
    ∃ labels link,
      Run linkStep resumingExchange.Resumes
          (.initial (soleSource (zerosThen 0)) (finishedFiles (zerosThen 1)))
          labels link ∧
        .transferComplete .completed ∈ link.left.events ∧
          ¬resumingExchange.NeverMixes
            ((resumingExchange.applied (zerosThen 0).length).kept
              (finishedFiles (zerosThen 1)))
            (zerosThen 0) link := by
  have keeps := zerosThen_canKeep 1
  have same : fingerprintOf (zerosThen 1) = fingerprintOf (zerosThen 0) := by
    rw [fingerprintOf_zerosThen, fingerprintOf_zerosThen]
  obtain ⟨labels, link, run, completed, -, files⟩ :=
    kept_run keeps same (fun checksum => by cases checksum)
  refine ⟨labels, link, run, completed, ?_⟩
  intro never
  have isWhole := never.leaves completed
  rw [files, keeps.isDest] at isWhole
  exact zerosThen_ne (Node.file.inj (Option.some.inj isWhole))

end Mixing

end Quiczilla
