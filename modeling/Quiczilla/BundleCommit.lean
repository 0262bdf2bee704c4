import Mathlib.Logic.Function.Basic
import Quiczilla.Foundation.Runs
import Quiczilla.Foundation.Sha256
import Quiczilla.Foundation.Text

/-!
# Refreshing the worker cache

`bootstrap_remote_worker` runs the bundle whose marker it finds in the cache,
or uploads one to a staging directory of its own and has the shell of the
remote publish it.  Any number of bootstraps of one bundle share the cache, and
the steps of their uploads and of their commit commands interleave freely.

Renaming a directory is one step; `rename` is `mv -T`, which does not replace a
directory with entries, and `move` is the `mv` after it, which goes into a
directory that exists.  Of a directory only the members of the bundle and the
staging directories that were moved into it are kept.
-/

namespace Quiczilla

open Foundation

inductive BundleMember where
  | worker
  | runtime
  | marker
  deriving DecidableEq, Repr

/-- What the CLI embeds. -/
structure WorkerBundle where
  workerBytes : List UInt8
  runtimeBytes : List UInt8
  deriving DecidableEq, Repr

namespace WorkerBundle

def bundleHash (bundle : WorkerBundle) : String :=
  sha256Hex (bundle.workerBytes ++ bundle.runtimeBytes)

def content (bundle : WorkerBundle) : BundleMember → List UInt8
  | .worker => bundle.workerBytes
  | .runtime => bundle.runtimeBytes
  | .marker => bundle.bundleHash.toUTF8.toList

/-- The comparison of `cache_hit`.  Where the marker is no text, or has
characters besides the ASCII ones, neither side of it can be the hash. -/
def isHit (bundle : WorkerBundle) (stdout : List UInt8) : Bool :=
  match String.fromUTF8? ⟨stdout.toArray⟩ with
  | some text => (trim text).toLower == bundle.bundleHash
  | none => false

end WorkerBundle

variable {Bootstrapper : Type}

structure BundleDirectory (Bootstrapper : Type) where
  members : BundleMember → Option (List UInt8)
  movedInto : List Bootstrapper

namespace BundleDirectory

def empty : BundleDirectory Bootstrapper where
  members := fun _ => none
  movedInto := []

def write
    (directory : BundleDirectory Bootstrapper) (member : BundleMember)
    (bytes : List UInt8) : BundleDirectory Bootstrapper :=
  { directory with
    members := Function.update directory.members member (some bytes) }

def isEmpty (directory : BundleDirectory Bootstrapper) : Bool :=
  (directory.members .worker).isNone &&
    (directory.members .runtime).isNone &&
      (directory.members .marker).isNone && directory.movedInto.isEmpty

def moveInto
    (directory : BundleDirectory Bootstrapper)
    (bootstrapper : Bootstrapper) : BundleDirectory Bootstrapper :=
  { directory with
    movedInto := directory.movedInto ++ [bootstrapper] }

@[simp]
theorem write_same
    (directory : BundleDirectory Bootstrapper) (member : BundleMember)
    (bytes : List UInt8) :
    (directory.write member bytes).members member = some bytes := by
  simp [write]

theorem write_other
    (directory : BundleDirectory Bootstrapper)
    {member other : BundleMember} (different : other ≠ member)
    (bytes : List UInt8) :
    (directory.write member bytes).members other =
      directory.members other := by
  simp [write, different]

/-- The directory holds the members with the contents of the hash. -/
def IsComplete
    (directory : BundleDirectory Bootstrapper) (bundle : WorkerBundle) :
    Prop :=
  ∀ member, directory.members member = some (bundle.content member)

end BundleDirectory

/-- Where a bootstrap is: its cache check, its uploads, the commands of its
commit, or behind them.  `stopped` is after an error. -/
inductive BootstrapPhase where
  | checking
  | uploading (member : BundleMember)
  | testing
  | renaming
  | moving
  | cleaning
  | launched
  | stopped
  deriving DecidableEq, Repr

/-- Steps of a bootstrap.  `delivered` and `written` count the bytes that
arrived; a `blocked` command fails for a reason of its own, such as a missing
permission. -/
inductive BootstrapLabel where
  | check (delivered : Nat)
  | write (written : Nat)
  | finishUpload
  | test
  | rename (blocked : Bool)
  | move (blocked : Bool)
  | clean (removed : Bool)
  | stop
  deriving DecidableEq, Repr

/-- A bootstrap, with its staging directory. -/
structure Bootstrap (Bootstrapper : Type) where
  phase : BootstrapPhase
  staging : Option (BundleDirectory Bootstrapper)

namespace Bootstrap

def become
    (bootstrap : Bootstrap Bootstrapper) (phase : BootstrapPhase) :
    Bootstrap Bootstrapper :=
  { bootstrap with phase := phase }

/-- `mkdir -p` and `cat >`, as far as it got. -/
def upload
    (bootstrap : Bootstrap Bootstrapper) (member : BundleMember)
    (bytes : List UInt8) : Bootstrap Bootstrapper :=
  { bootstrap with
    staging := some ((bootstrap.staging.getD .empty).write member bytes) }

def withoutStaging
    (bootstrap : Bootstrap Bootstrapper) : Bootstrap Bootstrapper :=
  { bootstrap with staging := none }

end Bootstrap

/-- The upload or the command after the upload of a member. -/
def BootstrapPhase.afterUpload : BundleMember → BootstrapPhase
  | .worker => .uploading .runtime
  | .runtime => .uploading .marker
  | .marker => .testing

/-- What `cat` of the marker prints. -/
def markerOutput
    (published : Option (BundleDirectory Bootstrapper))
    (delivered : Nat) : List UInt8 :=
  ((published.bind fun directory => directory.members .marker).getD
    []).take delivered

/-- `mv -T` replaces nothing but an empty directory. -/
def replaceable
    (published : Option (BundleDirectory Bootstrapper)) : Bool :=
  match published with
  | some directory => directory.isEmpty
  | none => true

/-- One step, with the bundle directory. -/
def bootstrapStep
    (bundle : WorkerBundle) (bootstrapper : Bootstrapper)
    (published : Option (BundleDirectory Bootstrapper))
    (own : Bootstrap Bootstrapper) (label : BootstrapLabel) :
    Option
      (Option (BundleDirectory Bootstrapper) × Bootstrap Bootstrapper) :=
  match own.phase, label with
  | .checking, .check delivered =>
      if bundle.isHit (markerOutput published delivered) then
        some (published, own.become .launched)
      else some (published, own.become (.uploading .worker))
  | .uploading member, .write written =>
      some
        (published,
          own.upload member ((bundle.content member).take written))
  | .uploading member, .finishUpload =>
      some
        (published,
          (own.upload member (bundle.content member)).become
            (.afterUpload member))
  | .testing, .test =>
      if published.isSome then some (published, own.become .cleaning)
      else some (published, own.become .renaming)
  | .renaming, .rename blocked =>
      match own.staging with
      | some staged =>
          if blocked || !replaceable published then
            some (published, own.become .moving)
          else some (some staged, own.withoutStaging.become .cleaning)
      | none => some (published, own.become .moving)
  | .moving, .move blocked =>
      -- `|| true`
      match own.staging with
      | some staged =>
          if blocked then some (published, own.become .cleaning)
          else
            match published with
            | some directory =>
                some
                  (some (directory.moveInto bootstrapper),
                    own.withoutStaging.become .cleaning)
            | none =>
                some (some staged, own.withoutStaging.become .cleaning)
      | none => some (published, own.become .cleaning)
  | .cleaning, .clean removed =>
      if removed then
        some (published, own.withoutStaging.become .launched)
      else some (published, own.become .launched)
  | .launched, _ => none
  | .stopped, _ => none
  | _, .stop => some (published, own.become .stopped)
  | _, _ => none

structure BundleCache (Bootstrapper : Type) where
  published : Option (BundleDirectory Bootstrapper)
  bootstraps : Bootstrapper → Bootstrap Bootstrapper

section Cache

variable [DecidableEq Bootstrapper]

def cacheStep
    (bundle : WorkerBundle) (cache : BundleCache Bootstrapper)
    (label : Bootstrapper × BootstrapLabel) :
    Option (BundleCache Bootstrapper) :=
  (bootstrapStep bundle label.1 cache.published
      (cache.bootstraps label.1) label.2).map fun (published, own) =>
    { published := published
      bootstraps := Function.update cache.bootstraps label.1 own }

end Cache

/-- Any number of bootstraps before their first steps, with what earlier ones
and administrators left. -/
def BundleCache.initial
    (prior : Option (BundleDirectory Bootstrapper)) :
    BundleCache Bootstrapper where
  published := prior
  bootstraps := fun _ => ⟨.checking, none⟩

/-- Whoever gets past the refresh has a complete bundle to run from. -/
def LaunchesComplete
    (bundle : WorkerBundle) (cache : BundleCache Bootstrapper) : Prop :=
  ∀ bootstrapper, (cache.bootstraps bootstrapper).phase = .launched →
    ∃ directory, cache.published = some directory ∧
      directory.IsComplete bundle

/-- The second `mv` is not blocked while there is no bundle. -/
def moveNotLost
    (cache : BundleCache Bootstrapper)
    (label : Bootstrapper × BootstrapLabel) : Prop :=
  label.2 = .move true → cache.published ≠ none

/-! ## From a cache without an incomplete bundle -/

/-- The members that have arrived in the staging directory. -/
def BootstrapPhase.hasStaged : BootstrapPhase → BundleMember → Prop
  | .uploading .runtime, .worker => True
  | .uploading .marker, .worker => True
  | .uploading .marker, .runtime => True
  | .testing, _ => True
  | .renaming, _ => True
  | .moving, _ => True
  | _, _ => False

/-- The phases in which there has to be a bundle. -/
def BootstrapPhase.needsBundle : BootstrapPhase → Prop
  | .cleaning => True
  | .launched => True
  | _ => False

def NoneIncomplete
    (bundle : WorkerBundle)
    (published : Option (BundleDirectory Bootstrapper)) : Prop :=
  ∀ directory, published = some directory → directory.IsComplete bundle

/-- What a bootstrap relies on. -/
structure BootstrapSound
    (bundle : WorkerBundle)
    (published : Option (BundleDirectory Bootstrapper))
    (own : Bootstrap Bootstrapper) : Prop where
  staged :
    ∀ member, own.phase.hasStaged member →
      ∃ directory, own.staging = some directory ∧
        directory.members member = some (bundle.content member)
  hasBundle : own.phase.needsBundle → published ≠ none

section Sound

variable {bundle : WorkerBundle}
  {published : Option (BundleDirectory Bootstrapper)}
  {own : Bootstrap Bootstrapper}

/-- A bootstrap relies on nothing that another one takes away. -/
theorem BootstrapSound.mono
    {later : Option (BundleDirectory Bootstrapper)}
    (sound : BootstrapSound bundle published own)
    (stays : published ≠ none → later ≠ none) :
    BootstrapSound bundle later own where
  staged := sound.staged
  hasBundle := fun needs => stays (sound.hasBundle needs)

theorem BootstrapSound.complete
    (sound : BootstrapSound bundle published own)
    (all : ∀ member, own.phase.hasStaged member) :
    ∃ directory, own.staging = some directory ∧
      directory.IsComplete bundle := by
  obtain ⟨directory, isStaging, _⟩ :=
    sound.staged .worker (all .worker)
  refine ⟨directory, isStaging, ?_⟩
  intro member
  obtain ⟨other, isOther, holds⟩ := sound.staged member (all member)
  rw [isStaging] at isOther
  obtain rfl := Option.some.inj isOther
  exact holds

theorem noneIncomplete_some
    {directory : BundleDirectory Bootstrapper}
    (complete : directory.IsComplete bundle) :
    NoneIncomplete bundle (some directory) := by
  intro other isOther
  obtain rfl := Option.some.inj isOther
  exact complete

theorem bundleHash_ne_empty (bundle : WorkerBundle) :
    bundle.bundleHash ≠ "" := by
  intro isEmpty
  have length := length_sha256Hex (bundle.workerBytes ++ bundle.runtimeBytes)
  rw [← WorkerBundle.bundleHash, isEmpty] at length
  cases length

theorem isHit_nil (bundle : WorkerBundle) : bundle.isHit [] = false := by
  have isEmpty : String.fromUTF8? ⟨([] : List UInt8).toArray⟩ = some "" := by
    decide +kernel
  have same : (trim "").toLower = "" := by
    decide +kernel
  rw [WorkerBundle.isHit, isEmpty]
  simp only [same, beq_eq_false_iff_ne]
  exact (bundleHash_ne_empty bundle).symm

theorem published_of_isHit
    {delivered : Nat}
    (hit : bundle.isHit (markerOutput published delivered) = true) :
    published ≠ none := by
  rintro rfl
  rw [markerOutput, Option.bind_none, Option.getD_none, List.take_nil,
    isHit_nil] at hit
  cases hit

/-- An upload keeps the members that arrived before, and adds its own. -/
theorem BootstrapSound.upload
    {member other : BundleMember}
    (sound : BootstrapSound bundle published own) (bytes : List UInt8)
    (different : other ≠ member) (arrived : own.phase.hasStaged other) :
    ∃ directory, (own.upload member bytes).staging = some directory ∧
      directory.members other = some (bundle.content other) := by
  obtain ⟨directory, isStaging, holds⟩ := sound.staged other arrived
  refine ⟨directory.write member bytes, ?_, ?_⟩
  · rw [Bootstrap.upload, isStaging, Option.getD_some]
  · rw [BundleDirectory.write_other directory different, holds]

/-- The members in front of the one that is being uploaded. -/
theorem hasStaged_uploading
    {member other : BundleMember}
    (arrived : (BootstrapPhase.uploading member).hasStaged other) :
    other ≠ member := by
  cases member <;> cases other <;> first | decide | exact arrived.elim

theorem hasStaged_afterUpload
    {member other : BundleMember} (different : other ≠ member)
    (arrived : (BootstrapPhase.afterUpload member).hasStaged other) :
    (BootstrapPhase.uploading member).hasStaged other := by
  cases member <;> cases other <;> trivial

theorem afterUpload_needsNone (member : BundleMember) :
    ¬ (BootstrapPhase.afterUpload member).needsBundle := by
  cases member <;> exact id

/-- What a step does to the directory and to the bootstrap that takes it. -/
structure StepSound
    (bundle : WorkerBundle)
    (published later : Option (BundleDirectory Bootstrapper))
    (next : Bootstrap Bootstrapper) : Prop where
  noneIncomplete : NoneIncomplete bundle later
  stays : published ≠ none → later ≠ none
  sound : BootstrapSound bundle later next

/-- A step that leaves the directory alone and ends in a phase that relies on
nothing new. -/
theorem StepSound.same
    {next : Bootstrap Bootstrapper}
    (noneIncomplete : NoneIncomplete bundle published)
    (staged :
      ∀ member, next.phase.hasStaged member →
        ∃ directory, next.staging = some directory ∧
          directory.members member = some (bundle.content member))
    (hasBundle : next.phase.needsBundle → published ≠ none) :
    StepSound bundle published published next :=
  ⟨noneIncomplete, id, staged, hasBundle⟩

/-- A step that publishes the staging directory. -/
theorem StepSound.publish
    {staged : BundleDirectory Bootstrapper} {next : Bootstrap Bootstrapper}
    (complete : staged.IsComplete bundle)
    (cleans : next.phase = .cleaning) :
    StepSound bundle published (some staged) next where
  noneIncomplete := noneIncomplete_some complete
  stays := nofun
  sound := by
    refine ⟨?_, nofun⟩
    rw [cleans]
    exact fun _ arrived => arrived.elim

theorem bootstrapStep_sound
    {bootstrapper : Bootstrapper} {label : BootstrapLabel}
    {later : Option (BundleDirectory Bootstrapper)}
    {next : Bootstrap Bootstrapper}
    (noneIncomplete : NoneIncomplete bundle published)
    (sound : BootstrapSound bundle published own)
    (notLost : label = .move true → published ≠ none)
    (stepped :
      bootstrapStep bundle bootstrapper published own label =
        some (later, next)) :
    StepSound bundle published later next := by
  unfold bootstrapStep at stepped
  split at stepped
  case h_1 delivered isPhase =>
    split at stepped
    · rename_i hit
      cases stepped
      exact
        .same noneIncomplete (fun _ arrived => arrived.elim)
          fun _ => published_of_isHit hit
    · cases stepped
      exact
        .same noneIncomplete (fun _ arrived => arrived.elim)
          fun needs => needs.elim
  case h_2 member written isPhase =>
    cases stepped
    refine .same noneIncomplete ?_ ?_
    · intro other arrived
      have before : own.phase.hasStaged other := arrived
      rw [isPhase] at before
      exact
        sound.upload _ (hasStaged_uploading before) arrived
    · intro needs
      have before : own.phase.needsBundle := needs
      rw [isPhase] at before
      exact before.elim
  case h_3 member isPhase =>
    cases stepped
    refine .same noneIncomplete ?_ ?_
    · intro other arrived
      by_cases isOwn : other = member
      · rw [isOwn]
        exact ⟨_, rfl, BundleDirectory.write_same _ _ _⟩
      · refine sound.upload _ isOwn ?_
        rw [isPhase]
        exact hasStaged_afterUpload isOwn arrived
    · exact fun needs => (afterUpload_needsNone member needs).elim
  case h_4 isPhase =>
    split at stepped
    · rename_i exists_
      cases stepped
      refine .same noneIncomplete (fun _ arrived => arrived.elim) ?_
      rintro _ rfl
      cases exists_
    · cases stepped
      refine .same noneIncomplete ?_ fun needs => needs.elim
      intro member _
      exact sound.staged member (by rw [isPhase]; trivial)
  case h_5 blocked isPhase =>
    obtain ⟨staged, isStaging, complete⟩ :=
      sound.complete (by rw [isPhase]; exact fun _ => trivial)
    simp only [isStaging] at stepped
    split at stepped
    · cases stepped
      refine .same noneIncomplete ?_ fun needs => needs.elim
      intro member _
      exact ⟨staged, isStaging, complete member⟩
    · cases stepped
      exact .publish complete rfl
  case h_6 blocked isPhase =>
    obtain ⟨staged, isStaging, complete⟩ :=
      sound.complete (by rw [isPhase]; exact fun _ => trivial)
    rw [isStaging] at stepped
    cases blocked with
    | true =>
        cases stepped
        exact
          .same noneIncomplete (fun _ arrived => arrived.elim)
            fun _ => notLost rfl
    | false =>
        cases published with
        | some directory =>
            cases stepped
            exact .publish (noneIncomplete directory rfl) rfl
        | none =>
            cases stepped
            exact .publish complete rfl
  case h_7 removed isPhase =>
    have there : published ≠ none :=
      sound.hasBundle (by rw [isPhase]; trivial)
    split at stepped
    · cases stepped
      exact
        .same noneIncomplete (fun _ arrived => arrived.elim)
          fun _ => there
    · cases stepped
      exact
        .same noneIncomplete (fun _ arrived => arrived.elim)
          fun _ => there
  case h_10 =>
    cases stepped
    exact
      .same noneIncomplete (fun _ arrived => arrived.elim)
        fun needs => needs.elim
  all_goals cases stepped

end Sound

section Runs

variable [DecidableEq Bootstrapper] {bundle : WorkerBundle}

structure CacheSound
    (bundle : WorkerBundle) (cache : BundleCache Bootstrapper) : Prop where
  noneIncomplete : NoneIncomplete bundle cache.published
  bootstraps :
    ∀ bootstrapper,
      BootstrapSound bundle cache.published (cache.bootstraps bootstrapper)

omit [DecidableEq Bootstrapper] in
theorem CacheSound.initial
    {prior : Option (BundleDirectory Bootstrapper)}
    (noneIncomplete : NoneIncomplete bundle prior) :
    CacheSound bundle (.initial prior) where
  noneIncomplete := noneIncomplete
  bootstraps := fun _ =>
    ⟨fun _ arrived => arrived.elim, fun needs => needs.elim⟩

theorem CacheSound.step
    {cache next : BundleCache Bootstrapper}
    {label : Bootstrapper × BootstrapLabel}
    (sound : CacheSound bundle cache) (notLost : moveNotLost cache label)
    (stepped : cacheStep bundle cache label = some next) :
    CacheSound bundle next := by
  obtain ⟨⟨later, own⟩, ownStepped, rfl⟩ :=
    Option.map_eq_some_iff.mp stepped
  have stepSound :=
    bootstrapStep_sound sound.noneIncomplete (sound.bootstraps label.1)
      notLost ownStepped
  refine ⟨stepSound.noneIncomplete, ?_⟩
  intro bootstrapper
  by_cases isOwn : bootstrapper = label.1
  · rw [isOwn]
    simp only [Function.update_self]
    exact stepSound.sound
  · simp only [Function.update_of_ne isOwn]
    exact (sound.bootstraps bootstrapper).mono stepSound.stays

omit [DecidableEq Bootstrapper] in
theorem CacheSound.launchesComplete
    {cache : BundleCache Bootstrapper} (sound : CacheSound bundle cache) :
    LaunchesComplete bundle cache := by
  intro bootstrapper launched
  have there :=
    (sound.bootstraps bootstrapper).hasBundle (by
      rw [launched]
      trivial)
  obtain ⟨directory, isPublished⟩ := Option.ne_none_iff_exists'.mp there
  exact
    ⟨directory, isPublished, sound.noneIncomplete directory isPublished⟩

/-! ## From an incomplete bundle -/

/-- The way of a bootstrap that finds no marker but a directory. -/
def missLabels (bootstrapper : Bootstrapper) :
    List (Bootstrapper × BootstrapLabel) :=
  [(bootstrapper, .check 0), (bootstrapper, .finishUpload),
    (bootstrapper, .finishUpload), (bootstrapper, .finishUpload),
    (bootstrapper, .test), (bootstrapper, .clean true)]

/-- The bootstrap is in the phase, and the directory is there. -/
def At (bootstrapper : Bootstrapper)
    (directory : BundleDirectory Bootstrapper) (phase : BootstrapPhase)
    (cache : BundleCache Bootstrapper) : Prop :=
  cache.published = some directory ∧
    (cache.bootstraps bootstrapper).phase = phase

theorem At.step
    {bootstrapper : Bootstrapper}
    {directory : BundleDirectory Bootstrapper}
    {phase later : BootstrapPhase} {label : BootstrapLabel}
    {cache : BundleCache Bootstrapper}
    (here : At bootstrapper directory phase cache)
    (steps :
      ∀ own : Bootstrap Bootstrapper, own.phase = phase →
        ∃ next,
          bootstrapStep bundle bootstrapper (some directory) own label =
              some (some directory, next) ∧
            next.phase = later) :
    ∃ next, cacheStep bundle cache (bootstrapper, label) = some next ∧
      At bootstrapper directory later next := by
  obtain ⟨isPublished, isPhase⟩ := here
  obtain ⟨own, stepped, isLater⟩ := steps _ isPhase
  refine
    ⟨⟨some directory, Function.update cache.bootstraps bootstrapper own⟩,
      ?_, rfl, ?_⟩
  · simp only [cacheStep, isPublished, stepped, Option.map_some]
  · simp only [Function.update_self, isLater]

theorem At.finishUpload
    {bootstrapper : Bootstrapper}
    {directory : BundleDirectory Bootstrapper} {member : BundleMember}
    {cache : BundleCache Bootstrapper}
    (here : At bootstrapper directory (.uploading member) cache) :
    ∃ next,
      cacheStep bundle cache (bootstrapper, .finishUpload) = some next ∧
        At bootstrapper directory (.afterUpload member) next := by
  refine here.step ?_
  rintro ⟨_, staging⟩ rfl
  exact ⟨_, rfl, rfl⟩

/-- It runs from the directory that was there. -/
theorem launched_from_prior
    (bootstrapper : Bootstrapper) (bundle : WorkerBundle)
    (directory : BundleDirectory Bootstrapper) :
    ∃ cache,
      Run (cacheStep bundle) moveNotLost (.initial (some directory))
          (missLabels bootstrapper) cache ∧
        cache.published = some directory ∧
          (cache.bootstraps bootstrapper).phase = .launched := by
  have start :
      At bootstrapper directory .checking
        (BundleCache.initial (some directory)) :=
    ⟨rfl, rfl⟩
  obtain ⟨checked, checks, isChecked⟩ :=
    @At.step _ _ bundle _ _ _ (.uploading .worker) (.check 0) _ start (by
      rintro ⟨_, staging⟩ rfl
      refine ⟨⟨.uploading .worker, staging⟩, ?_, rfl⟩
      simp [bootstrapStep, markerOutput, isHit_nil, Bootstrap.become])
  obtain ⟨first, uploadsFirst, isFirst⟩ :=
    @At.finishUpload _ _ bundle _ _ _ _ isChecked
  obtain ⟨second, uploadsSecond, isSecond⟩ :=
    @At.finishUpload _ _ bundle _ _ _ _ isFirst
  obtain ⟨third, uploadsThird, isThird⟩ :=
    @At.finishUpload _ _ bundle _ _ _ _ isSecond
  obtain ⟨tested, tests, isTested⟩ :=
    @At.step _ _ bundle _ _ _ .cleaning .test _ isThird (by
      rintro ⟨_, staging⟩ rfl
      exact ⟨_, rfl, rfl⟩)
  obtain ⟨cleaned, cleans, isPublished, isLaunched⟩ :=
    @At.step _ _ bundle _ _ _ .launched (.clean true) _ isTested (by
      rintro ⟨_, staging⟩ rfl
      exact ⟨_, rfl, rfl⟩)
  refine ⟨cleaned, ?_, isPublished, isLaunched⟩
  exact
    .cons nofun checks
      (.cons nofun uploadsFirst
        (.cons nofun uploadsSecond
          (.cons nofun uploadsThird
            (.cons nofun tests (.cons nofun cleans (.refl _))))))

/-- No run without a lost move starts a worker from anything but a complete
bundle if and only if the run begins without an incomplete one. -/
theorem refresh_yields_complete_exactly
    (bundle : WorkerBundle) (bootstrapper : Bootstrapper)
    (prior : Option (BundleDirectory Bootstrapper)) :
    (∀ labels cache,
      Run (cacheStep bundle) moveNotLost (.initial prior) labels cache →
        LaunchesComplete bundle cache) ↔
      ∀ directory, prior = some directory →
        directory.IsComplete bundle := by
  constructor
  · rintro always directory rfl
    obtain ⟨cache, run, isPublished, launched⟩ :=
      launched_from_prior bootstrapper bundle directory
    obtain ⟨other, isOther, complete⟩ :=
      always _ cache run bootstrapper launched
    rw [isPublished] at isOther
    obtain rfl := Option.some.inj isOther
    exact complete
  · intro noneIncomplete labels cache run
    have sound : CacheSound bundle cache :=
      run.preserves (CacheSound bundle)
        (fun _ _ _ sound notLost stepped => sound.step notLost stepped)
        (CacheSound.initial noneIncomplete)
    exact sound.launchesComplete

end Runs

/-- A bundle whose removal got as far as the marker. -/
def withoutMarker (bundle : WorkerBundle) : BundleDirectory Unit where
  members := fun member =>
    if member = .marker then none else some (bundle.content member)
  movedInto := []

/-- The bootstrap uploads a bundle, and leaves the marker missing. -/
theorem incomplete_bundle_launched :
    ¬ ∀ (bundle : WorkerBundle)
        (prior : Option (BundleDirectory Unit))
        (labels : List (Unit × BootstrapLabel))
        (cache : BundleCache Unit),
      Run (cacheStep bundle) anyStep (.initial prior) labels cache →
        LaunchesComplete bundle cache := by
  intro always
  obtain ⟨cache, run, isPublished, launched⟩ :=
    launched_from_prior () ⟨[1], [2]⟩ (withoutMarker ⟨[1], [2]⟩)
  obtain ⟨directory, isDirectory, complete⟩ :=
    always _ _ _ cache (run.weaken fun _ _ _ => trivial) () launched
  rw [isPublished] at isDirectory
  obtain rfl := Option.some.inj isDirectory
  cases complete .marker

end Quiczilla
