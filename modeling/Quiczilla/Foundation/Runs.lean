import Mathlib.Logic.Basic

/-!
# Guarded runs of labelled machines

A machine is a partial step function: a label resolves every choice that the
scheduler, the network or the environment makes, so one state and one label
have at most one successor.  `replay` executes a finite list of labels.

`Run` is the same execution seen as a derivation, and it carries a guard: each
step is taken from a state and with a label that the guard admits.  Safety
theorems are stated over `Run`; concrete traces are evaluated by `replay`.
-/

namespace Quiczilla.Foundation

universe u v w

variable {State : Type u} {Label : Type v} {History : Type w}

/-- Execute the labels in order; `none` when some label is not enabled. -/
def replay (step : State → Label → Option State) :
    State → List Label → Option State
  | state, [] => some state
  | state, label :: rest =>
      match step state label with
      | none => none
      | some next => replay step next rest

/-- An execution all of whose steps meet the guard. -/
inductive Run
    (step : State → Label → Option State)
    (guard : State → Label → Prop) :
    State → List Label → State → Prop
  | refl (state : State) : Run step guard state [] state
  | cons {source middle target : State} {label : Label}
      {rest : List Label} :
      guard source label →
      step source label = some middle →
      Run step guard middle rest target →
      Run step guard source (label :: rest) target

/-- The guard that admits every step. -/
def anyStep : State → Label → Prop := fun _ _ => True

variable {step : State → Label → Option State}
  {guard : State → Label → Prop}

theorem replay_cons_eq_some
    {state final : State} {label : Label} {rest : List Label} :
    replay step state (label :: rest) = some final ↔
      ∃ next, step state label = some next ∧
        replay step next rest = some final := by
  rw [replay]
  cases stepped : step state label with
  | none =>
      simp
  | some next =>
      simp

/-- A guarded run is, in particular, an execution. -/
theorem Run.replay_eq
    {source target : State} {labels : List Label}
    (run : Run step guard source labels target) :
    replay step source labels = some target := by
  induction run with
  | refl state =>
      rfl
  | cons _ stepped _ inductionHypothesis =>
      exact replay_cons_eq_some.mpr
        ⟨_, stepped, inductionHypothesis⟩

/-- Every execution is a run under the trivial guard. -/
theorem run_of_replay
    {source target : State} {labels : List Label}
    (ran : replay step source labels = some target) :
    Run step anyStep source labels target := by
  induction labels generalizing source with
  | nil =>
      cases ran
      exact Run.refl _
  | cons label rest inductionHypothesis =>
      obtain ⟨next, stepped, restRan⟩ :=
        replay_cons_eq_some.mp ran
      exact Run.cons trivial stepped (inductionHypothesis restRan)

/-- Execute the labels as long as every step meets a decidable guard. -/
def guardedReplay (step : State → Label → Option State)
    (guard : State → Label → Prop)
    [∀ state label, Decidable (guard state label)] :
    State → List Label → Option State
  | state, [] => some state
  | state, label :: rest =>
      if guard state label then
        match step state label with
        | none => none
        | some next => guardedReplay step guard next rest
      else none

theorem run_of_guardedReplay
    [∀ state label, Decidable (guard state label)]
    {source target : State} {labels : List Label}
    (ran : guardedReplay step guard source labels = some target) :
    Run step guard source labels target := by
  induction labels generalizing source with
  | nil =>
      cases ran
      exact Run.refl _
  | cons label rest inductionHypothesis =>
      rw [guardedReplay] at ran
      split at ran
      · rename_i admitted
        cases stepped : step source label with
        | none =>
            rw [stepped] at ran
            cases ran
        | some next =>
            rw [stepped] at ran
            exact Run.cons admitted stepped (inductionHypothesis ran)
      · cases ran

/-- A guarded run meets the guard when it is executed. -/
theorem Run.guardedReplay_eq
    [∀ state label, Decidable (guard state label)]
    {source target : State} {labels : List Label}
    (run : Run step guard source labels target) :
    guardedReplay step guard source labels = some target := by
  induction run with
  | refl state =>
      rfl
  | cons admitted stepped _ inductionHypothesis =>
      rw [guardedReplay, if_pos admitted, stepped]
      exact inductionHypothesis

theorem Run.weaken
    {weaker : State → Label → Prop}
    {source target : State} {labels : List Label}
    (run : Run step guard source labels target)
    (implied : ∀ state label, guard state label → weaker state label) :
    Run step weaker source labels target := by
  induction run with
  | refl state =>
      exact Run.refl state
  | cons admitted stepped _ inductionHypothesis =>
      exact Run.cons (implied _ _ admitted) stepped inductionHypothesis

/-- What holds of every label can be taken into the guard. -/
theorem Run.of_labels
    {condition : Label → Prop} {source target : State}
    {labels : List Label} (run : Run step guard source labels target)
    (holds : ∀ label ∈ labels, condition label) :
    Run step (fun state label => guard state label ∧ condition label) source
      labels target := by
  induction run with
  | refl state =>
      exact Run.refl state
  | cons admitted stepped _ inductionHypothesis =>
      rw [List.forall_mem_cons] at holds
      exact
        Run.cons ⟨admitted, holds.1⟩ stepped
          (inductionHypothesis holds.2)

theorem Run.append
    {source middle target : State} {first second : List Label}
    (firstRun : Run step guard source first middle)
    (secondRun : Run step guard middle second target) :
    Run step guard source (first ++ second) target := by
  induction firstRun with
  | refl state =>
      exact secondRun
  | cons admitted stepped _ inductionHypothesis =>
      exact Run.cons admitted stepped (inductionHypothesis secondRun)

theorem Run.single
    {source target : State} {label : Label}
    (admitted : guard source label)
    (stepped : step source label = some target) :
    Run step guard source [label] target :=
  Run.cons admitted stepped (Run.refl target)

/-- What every admitted step preserves holds along every guarded run. -/
theorem Run.preserves
    (invariant : State → Prop)
    (kept :
      ∀ source label target,
        invariant source → guard source label →
          step source label = some target → invariant target)
    {source target : State} {labels : List Label}
    (run : Run step guard source labels target)
    (initially : invariant source) :
    invariant target := by
  induction run with
  | refl state =>
      exact initially
  | cons admitted stepped _ inductionHypothesis =>
      exact inductionHypothesis (kept _ _ _ initially admitted stepped)

/-- Where an invariant implies a guard, every run meets the guard. -/
theorem Run.restrict
    {narrower : State → Label → Prop} (invariant : State → Prop)
    (implied :
      ∀ state label, invariant state → guard state label →
        narrower state label)
    (kept :
      ∀ source label target, invariant source → narrower source label →
        step source label = some target → invariant target)
    {source target : State} {labels : List Label}
    (run : Run step guard source labels target)
    (initially : invariant source) :
    Run step narrower source labels target := by
  induction run with
  | refl state =>
      exact Run.refl state
  | cons admitted stepped _ inductionHypothesis =>
      have narrow := implied _ _ initially admitted
      exact
        Run.cons narrow stepped
          (inductionHypothesis (kept _ _ _ initially narrow stepped))

/-- A run through a list of labels passes through every cut of the list. -/
theorem Run.split
    {source target : State} {first second : List Label}
    (run : Run step guard source (first ++ second) target) :
    ∃ middle,
      Run step guard source first middle ∧
        Run step guard middle second target := by
  induction first generalizing source with
  | nil => exact ⟨source, Run.refl source, run⟩
  | cons label rest inductionHypothesis =>
      cases run with
      | cons admitted stepped restRun =>
          obtain ⟨middle, before, after⟩ := inductionHypothesis restRun
          exact ⟨middle, Run.cons admitted stepped before, after⟩

/-- Every step of the execution is taken as the property says. -/
def Throughout (step : State → Label → Option State)
    (source : State) (labels : List Label)
    (property : State → Label → Prop) : Prop :=
  ∀ done next rest,
    labels = done ++ next :: rest →
      ∀ state, replay step source done = some state → property state next

theorem throughout_nil
    (source : State) (property : State → Label → Prop) :
    Throughout step source [] property := by
  intro done next rest isCut
  cases done <;> cases isCut

theorem throughout_cons
    {source : State} {label : Label} {rest : List Label}
    {property : State → Label → Prop}
    (first : property source label)
    (others :
      ∀ next, step source label = some next →
        Throughout step next rest property) :
    Throughout step source (label :: rest) property := by
  intro done next after isCut state ran
  cases done with
  | nil =>
      cases isCut
      cases ran
      exact first
  | cons head before =>
      obtain ⟨sameHead, isRest⟩ := List.cons.inj isCut
      subst sameHead
      obtain ⟨middle, stepped, ranRest⟩ := replay_cons_eq_some.mp ran
      exact others middle stepped before next after isRest state ranRest

theorem Throughout.uncons
    {source middle : State} {label : Label} {rest : List Label}
    {property : State → Label → Prop}
    (throughout : Throughout step source (label :: rest) property)
    (stepped : step source label = some middle) :
    property source label ∧ Throughout step middle rest property := by
  constructor
  · exact throughout [] label rest rfl source rfl
  · intro done next after isCut state ran
    have isCut : label :: rest = (label :: done) ++ next :: after := by
      rw [isCut, List.cons_append]
    exact
      throughout (label :: done) next after isCut state
        (replay_cons_eq_some.mpr ⟨middle, stepped, ran⟩)

/-- A property of the steps keeps one invariant for as long as it is met; the
first step that does not meet it leaves another one behind, for good. -/
theorem Run.intact_or_broken
    {property : State → Label → Prop} (intact broken : State → Prop)
    (kept :
      ∀ source label target, intact source → property source label →
        step source label = some target → intact target)
    (breaks :
      ∀ source label target, intact source → ¬property source label →
        step source label = some target → broken target)
    (stays :
      ∀ source label target, broken source →
        step source label = some target → broken target)
    {source target : State} {labels : List Label}
    (run : Run step guard source labels target)
    (initially : intact source) :
    (intact target ∧ Throughout step source labels property) ∨
      (broken target ∧ ¬Throughout step source labels property) := by
  induction run with
  | refl state => exact Or.inl ⟨initially, throughout_nil state property⟩
  | @cons source middle target label rest _ stepped restRun
      inductionHypothesis =>
      by_cases met : property source label
      · rcases inductionHypothesis (kept _ _ _ initially met stepped) with
          ⟨isIntact, meets⟩ | ⟨isBroken, fails⟩
        · refine Or.inl ⟨isIntact, throughout_cons met ?_⟩
          intro next alsoStepped
          rw [stepped] at alsoStepped
          cases alsoStepped
          exact meets
        · exact
            Or.inr
              ⟨isBroken, fun throughout =>
                fails (throughout.uncons stepped).2⟩
      · have isBroken := breaks _ _ _ initially met stepped
        refine Or.inr ⟨?_, fun throughout => ?_⟩
        · exact
            restRun.preserves broken
              (fun _ _ _ broken _ stepped => stays _ _ _ broken stepped)
              isBroken
        · exact met (throughout.uncons stepped).1

/-- Two properties that agree where an invariant holds are met throughout the
same runs. -/
theorem Run.throughout_congr
    {first second : State → Label → Prop} (invariant : State → Prop)
    (kept :
      ∀ source label target,
        invariant source → guard source label →
          step source label = some target → invariant target)
    (agree :
      ∀ state label,
        invariant state → guard state label →
          (first state label ↔ second state label))
    {source target : State} {labels : List Label}
    (run : Run step guard source labels target)
    (initially : invariant source) :
    Throughout step source labels first ↔
      Throughout step source labels second := by
  have same {done rest : List Label} {next : Label} {state : State}
      (isCut : labels = done ++ next :: rest)
      (ran : replay step source done = some state) :
      first state next ↔ second state next := by
    rw [isCut] at run
    obtain ⟨middle, before, after⟩ := run.split
    have isMiddle : state = middle := by
      rw [before.replay_eq] at ran
      exact (Option.some.inj ran).symm
    subst isMiddle
    cases after with
    | cons admitted _ _ =>
        exact agree _ _ (before.preserves invariant kept initially) admitted
  constructor
  · intro holds done next rest isCut state ran
    exact (same isCut ran).mp (holds done next rest isCut state ran)
  · intro holds done next rest isCut state ran
    exact (same isCut ran).mpr (holds done next rest isCut state ran)

/-- The machine with a history variable, which notes what the steps did and
which no step reads. -/
def withHistory (step : State → Label → Option State)
    (note : State → Label → State → History → History)
    (watched : State × History) (label : Label) :
    Option (State × History) :=
  (step watched.1 label).map fun next =>
    (next, note watched.1 label next watched.2)

theorem withHistory_eq_some
    {note : State → Label → State → History → History}
    {watched next : State × History} {label : Label} :
    withHistory step note watched label = some next ↔
      step watched.1 label = some next.1 ∧
        next.2 = note watched.1 label next.1 watched.2 := by
  rw [withHistory, Option.map_eq_some_iff]
  constructor
  · rintro ⟨target, stepped, rfl⟩
    exact ⟨stepped, rfl⟩
  · rintro ⟨stepped, noted⟩
    exact ⟨next.1, stepped, Prod.ext rfl noted.symm⟩

end Quiczilla.Foundation
