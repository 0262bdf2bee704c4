import Mathlib.Data.Int.Order.Basic
import Mathlib.Data.Prod.Lex
import Quiczilla.Foundation.SortedCut

/-!
# Pruning the worker cache

After a managed worker was started, `prune_remote_worker_cache` removes all but
the three newest bundles, and the staging directories of earlier uploads.  The
Linux command sorts the lines that `find` prints; the names of directories are
compared in the collating order of the remote, and contain no line end.
-/

namespace Quiczilla

open Foundation

/-- What the tests of `find` tell apart: directories called `bundle-*`,
directories called `staging-*` and everything else. -/
inductive EntryKind where
  | bundle
  | staging
  | other
  deriving DecidableEq, Repr

/-- An entry of `~/.cache/quiczilla`, with its time in nanoseconds. -/
structure CacheEntry (Name : Type) where
  name : Name
  kind : EntryKind
  modified : Int
  deriving DecidableEq, Repr

structure WorkerCache (Name : Type) where
  entries : List (CacheEntry Name)
  nodup : (entries.map CacheEntry.name).Nodup

variable {Name : Type} [LinearOrder Name]

/-- The line `%T@ %p`, as `sort -n` compares it: lines with equal numbers are
compared as a whole. -/
def CacheEntry.line (entry : CacheEntry Name) : Int ×ₗ Name :=
  toLex (entry.modified, entry.name)

namespace WorkerCache

def bundles (cache : WorkerCache Name) : List (CacheEntry Name) :=
  cache.entries.filter fun entry => entry.kind = .bundle

/-- `sort -rn | tail -n +4`. -/
def pruned (cache : WorkerCache Name) : List (CacheEntry Name) :=
  (sortDescending CacheEntry.line cache.bundles).drop 3

/-- `-mmin +30`. -/
def isExpired (now : Int) (entry : CacheEntry Name) : Bool :=
  decide
    (entry.kind = .staging ∧
      30 * 60 * 1000000000 < now - entry.modified)

/-- The command, where `removes` tells which directories `rm -rf` can
remove. -/
def prune
    (cache : WorkerCache Name) (now : Int) (removes : Name → Bool) :
    WorkerCache Name where
  entries :=
    cache.entries.filter fun entry =>
      !(removes entry.name &&
        (decide (entry ∈ cache.pruned) || isExpired now entry))
  nodup := (List.filter_sublist.map CacheEntry.name).nodup cache.nodup

/-- The bundles that are listed before the entry. -/
def newer
    (cache : WorkerCache Name) (entry : CacheEntry Name) :
    List (CacheEntry Name) :=
  above CacheEntry.line cache.bundles entry

/-- What the README says about the cache after a worker was started: the
active bundle and two recent ones. -/
structure KeepsActive
    (before after : WorkerCache Name) (active : CacheEntry Name) :
    Prop where
  keptActive : active ∈ after.bundles
  atMostThree : after.bundles.length ≤ 3
  recent :
    ∀ removed ∈ before.bundles, removed ∉ after.bundles →
      ∀ retained ∈ after.bundles, retained ≠ active →
        removed.modified ≤ retained.modified

section Prune

variable {cache : WorkerCache Name} {now : Int} {removes : Name → Bool}

omit [LinearOrder Name] in
theorem lines_nodup (cache : WorkerCache Name) :
    (cache.bundles.map CacheEntry.line).Nodup := by
  have names : (cache.bundles.map CacheEntry.name).Nodup :=
    (List.filter_sublist.map CacheEntry.name).nodup cache.nodup
  have below :
      (cache.bundles.map CacheEntry.line).map
          (fun line => (ofLex line).2) =
        cache.bundles.map CacheEntry.name := by
    rw [List.map_map]
    rfl
  rw [← below] at names
  exact names.of_map _

/-- Three bundles are listed before every bundle that is pruned. -/
theorem mem_pruned {entry : CacheEntry Name} :
    entry ∈ cache.pruned ↔
      entry ∈ cache.bundles ∧ 3 ≤ (cache.newer entry).length :=
  mem_drop_sortDescending cache.lines_nodup 3 entry

theorem prune_bundles :
    (cache.prune now removes).bundles =
      cache.bundles.filter fun entry =>
        !(removes entry.name && decide (entry ∈ cache.pruned)) := by
  rw [bundles, bundles, prune, List.filter_filter, List.filter_filter]
  apply List.filter_congr
  intro entry _
  by_cases isBundle : entry.kind = .bundle
  · simp [isBundle, isExpired]
  · simp [isBundle]

theorem mem_prune_bundles {entry : CacheEntry Name} :
    entry ∈ (cache.prune now removes).bundles ↔
      entry ∈ cache.bundles ∧
        (entry ∈ cache.pruned → removes entry.name = false) := by
  rw [prune_bundles, List.mem_filter]
  apply and_congr_right
  intro _
  by_cases isPruned : entry ∈ cache.pruned <;> simp [isPruned]

/-- Of the pruned bundles there remain those that cannot be removed. -/
theorem length_prune_bundles :
    (cache.prune now removes).bundles.length =
      min 3 cache.bundles.length +
        (cache.pruned.filter fun entry => !removes entry.name).length := by
  have kept :=
    length_filter_of_tail cache.lines_nodup 3
      (fun entry =>
        !(removes entry.name && decide (entry ∈ cache.pruned)))
      (by
        intro entry inFront
        have notPruned : entry ∉ cache.pruned := inFront
        simp [notPruned])
  rw [prune_bundles, kept]
  congr 2
  apply List.filter_congr
  intro entry member
  have isPruned : entry ∈ cache.pruned := member
  simp [isPruned]

/-- A bundle that is listed later has all of the earlier ones before it. -/
theorem length_newer_lt
    {first second : CacheEntry Name} (member : first ∈ cache.bundles)
    (earlier : second.line < first.line) :
    (cache.newer first).length < (cache.newer second).length := by
  have sublist :
      (first :: cache.newer first).Subperm (cache.newer second) := by
    have nodup : (cache.newer first).Nodup :=
      (List.Nodup.of_map _ cache.lines_nodup).filter _
    apply List.subperm_of_subset
    · refine List.nodup_cons.mpr ⟨?_, nodup⟩
      intro inNewer
      have above := (List.mem_filter.mp inNewer).2
      exact lt_irrefl _ (of_decide_eq_true above)
    · intro other isOther
      refine List.mem_filter.mpr ?_
      rcases List.mem_cons.mp isOther with rfl | inNewer
      · exact ⟨member, decide_eq_true earlier⟩
      · obtain ⟨isBundle, above⟩ := List.mem_filter.mp inNewer
        exact
          ⟨isBundle,
            decide_eq_true (earlier.trans (of_decide_eq_true above))⟩
  exact sublist.length_le

/-- The active bundle and two recent ones are what is left if and only if at
most two bundles are listed before the active one and all those with three
before them can be removed. -/
theorem prune_keeps_active_exactly
    (cache : WorkerCache Name) {active : CacheEntry Name}
    (launched : active ∈ cache.bundles) (now : Int)
    (removes : Name → Bool) :
    KeepsActive cache (cache.prune now removes) active ↔
      (cache.newer active).length < 3 ∧
        ∀ bundle ∈ cache.bundles, 3 ≤ (cache.newer bundle).length →
          removes bundle.name = true := by
  constructor
  · rintro ⟨keptActive, atMostThree, _⟩
    have removable :
        ∀ bundle ∈ cache.bundles, 3 ≤ (cache.newer bundle).length →
          removes bundle.name = true := by
      intro bundle member later
      by_contra stuck
      have isPruned := mem_pruned.mpr ⟨member, later⟩
      have many : 3 ≤ cache.bundles.length :=
        later.trans (List.length_filter_le _ _)
      have left :
          bundle ∈ cache.pruned.filter fun entry =>
            !removes entry.name := by
        rw [List.mem_filter]
        exact ⟨isPruned, by simpa using stuck⟩
      have some := List.length_pos_of_mem left
      rw [length_prune_bundles] at atMostThree
      omega
    refine ⟨?_, removable⟩
    by_contra many
    have later : 3 ≤ (cache.newer active).length := by omega
    have stuck :=
      (mem_prune_bundles.mp keptActive).2
        (mem_pruned.mpr ⟨launched, later⟩)
    rw [removable active launched later] at stuck
    cases stuck
  · rintro ⟨few, removable⟩
    have gone :
        ∀ bundle ∈ cache.pruned, removes bundle.name = true := by
      intro bundle isPruned
      obtain ⟨member, later⟩ := mem_pruned.mp isPruned
      exact removable bundle member later
    refine ⟨?_, ?_, ?_⟩
    · rw [mem_prune_bundles]
      refine ⟨launched, fun isPruned => ?_⟩
      have later := (mem_pruned.mp isPruned).2
      omega
    · have nothing :
          (cache.pruned.filter fun entry => !removes entry.name) = [] := by
        rw [List.filter_eq_nil_iff]
        intro bundle isPruned
        simp [gone bundle isPruned]
      rw [length_prune_bundles, nothing, List.length_nil]
      omega
    · intro removed wasBundle isRemoved retained isRetained _
      obtain ⟨isBundle, keeps⟩ := mem_prune_bundles.mp isRetained
      have removedPruned : removed ∈ cache.pruned := by
        by_contra notPruned
        exact
          isRemoved
            (mem_prune_bundles.mpr
              ⟨wasBundle, fun isPruned => absurd isPruned notPruned⟩)
      have retainedKept : ¬ 3 ≤ (cache.newer retained).length := by
        intro later
        have isPruned := mem_pruned.mpr ⟨isBundle, later⟩
        have stuck := keeps isPruned
        rw [gone retained isPruned] at stuck
        cases stuck
      by_contra younger
      have earlier : retained.line < removed.line := by
        rw [CacheEntry.line, CacheEntry.line, Prod.Lex.toLex_lt_toLex]
        left
        omega
      have fewer := @length_newer_lt _ _ cache _ _ wasBundle earlier
      have later := (mem_pruned.mp removedPruned).2
      omega

end Prune

/-- Four bundles of successive seconds; their hashes are the names. -/
def fourBundles : WorkerCache Nat where
  entries :=
    [⟨0x0a, .bundle, 1000000000⟩, ⟨0x1b, .bundle, 2000000000⟩,
      ⟨0x2c, .bundle, 3000000000⟩, ⟨0x3d, .bundle, 4000000000⟩]
  nodup := by decide

/-- The second oldest of four bundles is in use. -/
theorem prune_keeps_second_oldest :
    KeepsActive fourBundles
      (fourBundles.prune 9000000000 fun _ => true)
      ⟨0x1b, .bundle, 2000000000⟩ :=
  (prune_keeps_active_exactly fourBundles (by decide) 9000000000
    fun _ => true).mpr ⟨by decide, fun _ _ _ => rfl⟩

/-- A cache hit on the oldest of four bundles starts a worker that is then
removed. -/
theorem active_bundle_pruned :
    ¬ ∀ (cache : WorkerCache Nat) (active : CacheEntry Nat),
      active ∈ cache.bundles → ∀ now : Int,
        KeepsActive cache (cache.prune now fun _ => true) active := by
  intro always
  have kept :=
    (always fourBundles ⟨0x0a, .bundle, 1000000000⟩ (by decide)
      9000000000).keptActive
  have isPruned :
      ⟨0x0a, .bundle, 1000000000⟩ ∈ fourBundles.pruned :=
    mem_pruned.mpr ⟨by decide, by decide⟩
  cases (mem_prune_bundles.mp kept).2 isPruned

end WorkerCache

end Quiczilla
