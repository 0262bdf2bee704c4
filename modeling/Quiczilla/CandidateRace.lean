import Quiczilla.Foundation.Runs

/-!
# Racing the direct and the STUN candidate

The `Auto` branch of `connect_quic_candidate` pins two `connect_client`
futures and a head-start timer and selects over them in a loop.  Two flags
guard the branches: `direct_pending` and `stun_pending`; the timer is enabled
whenever `stun_pending` is off.

An async future that is polled after it has completed panics, while an elapsed
timer is ready again on every poll.  `select!` polls its enabled branches in
rotation from a random start and takes the first one that is ready.
-/

namespace Quiczilla

open Foundation

inductive Candidate where
  | direct
  | stun
  deriving DecidableEq, Repr

inductive ConnectResult where
  | ok
  | err (error : String)
  deriving DecidableEq, Repr

/-- A pinned `connect_client` future.  Its first poll starts the attempt, or
fails at once when opening or binding the connection fails. -/
inductive Attempt where
  | unpolled (atOnce : Option String)
  | connecting
  | resolved (result : ConnectResult)
  | consumed
  deriving DecidableEq, Repr

inductive RaceOutcome where
  | racing
  | connected (candidate : Candidate)
  | failed (message : String)
  | panicked
  deriving DecidableEq, Repr

/-- The locals of the loop.  `stunStarts` and `finished` are history: how often
a STUN attempt was started, and the results in the order in which the attempts
finished. -/
structure RaceState where
  direct : Attempt
  stun : Attempt
  headElapsed : Bool
  directPending : Bool
  stunPending : Bool
  directError : Option String
  stunError : Option String
  outcome : RaceOutcome
  stunStarts : Nat
  finished : List (Candidate × ConnectResult)
  deriving DecidableEq, Repr

def RaceState.initial (directAtOnce stunAtOnce : Option String) :
    RaceState where
  direct := .unpolled directAtOnce
  stun := .unpolled stunAtOnce
  headElapsed := false
  directPending := true
  stunPending := false
  directError := none
  stunError := none
  outcome := .racing
  stunStarts := 0
  finished := []

inductive SelectBranch where
  | direct
  | headStart
  | stun
  deriving DecidableEq, Repr

/-- The order in which `select!` polls from a random start. -/
def SelectBranch.rotation : SelectBranch → List SelectBranch
  | .direct => [.direct, .headStart, .stun]
  | .headStart => [.headStart, .stun, .direct]
  | .stun => [.stun, .direct, .headStart]

/-- The message of the final `bail!`. -/
def raceFailure (directError stunError : Option String) : String :=
  "direct QUIC candidate failed: " ++
    directError.getD "not attempted" ++
    "; STUN candidate failed: " ++
    stunError.getD "not attempted"

/-- The attempt has finished. -/
def RaceState.finish
    (state : RaceState) (candidate : Candidate) (result : ConnectResult) :
    RaceState :=
  { state with finished := state.finished ++ [(candidate, result)] }

/-- The check at the end of the loop body. -/
def RaceState.settle (state : RaceState) : RaceState :=
  if !state.directPending && !state.stunPending then
    { state with
      outcome := .failed (raceFailure state.directError state.stunError) }
  else
    state

/-- The handler of the direct branch. -/
def RaceState.takeDirect
    (state : RaceState) (result : ConnectResult) : RaceState :=
  let observed :=
    { state with direct := .consumed, directPending := false }
  match result with
  | .ok => { observed with outcome := .connected .direct }
  | .err error =>
      RaceState.settle
        { observed with directError := some error, stunPending := true }

/-- The handler of the STUN branch. -/
def RaceState.takeStun
    (state : RaceState) (result : ConnectResult) : RaceState :=
  let observed :=
    { state with stun := .consumed, stunPending := false }
  match result with
  | .ok => { observed with outcome := .connected .stun }
  | .err error =>
      RaceState.settle { observed with stunError := some error }

/-- Polling one branch leaves it pending or runs its handler. -/
inductive BranchPoll where
  | pending (state : RaceState)
  | taken (state : RaceState)

def RaceState.pollBranch (state : RaceState) : SelectBranch → BranchPoll
  | .direct =>
      if !state.directPending then .pending state
      else
        match state.direct with
        | .unpolled none => .pending { state with direct := .connecting }
        | .unpolled (some error) =>
            .taken
              ((state.finish .direct (.err error)).takeDirect (.err error))
        | .connecting => .pending state
        | .resolved result => .taken (state.takeDirect result)
        | .consumed => .taken { state with outcome := .panicked }
  | .headStart =>
      if state.stunPending then .pending state
      else if state.headElapsed then
        .taken (RaceState.settle { state with stunPending := true })
      else
        .pending state
  | .stun =>
      if !state.stunPending then .pending state
      else
        match state.stun with
        | .unpolled none =>
            .pending
              { state with
                stun := .connecting
                stunStarts := state.stunStarts + 1 }
        | .unpolled (some error) =>
            .taken
              (RaceState.takeStun
                { state.finish .stun (.err error) with
                  stunStarts := state.stunStarts + 1 }
                (.err error))
        | .connecting => .pending state
        | .resolved result => .taken (state.takeStun result)
        | .consumed => .taken { state with outcome := .panicked }

/-- Poll the branches in order until one is taken. -/
def RaceState.pollBranches : List SelectBranch → RaceState → RaceState
  | [], state => state
  | branch :: rest, state =>
      match state.pollBranch branch with
      | .pending next => RaceState.pollBranches rest next
      | .taken next => next

/-- Without an enabled branch `select!` panics, since it has no `else`. -/
def RaceState.hasEnabledBranch (state : RaceState) : Bool :=
  state.directPending || !state.stunPending || state.stunPending

/-- The events of a race: an attempt that is under way finishes, the timer
elapses, or the loop polls its `select!`. -/
inductive RaceEvent where
  | directFinishes (result : ConnectResult)
  | stunFinishes (result : ConnectResult)
  | headStartElapses
  | poll (start : SelectBranch)
  deriving DecidableEq, Repr

def raceStep (state : RaceState) (event : RaceEvent) : Option RaceState :=
  if state.outcome ≠ .racing then none
  else
    match event with
    | .directFinishes result =>
        if state.direct = .connecting then
          some
            { state.finish .direct result with direct := .resolved result }
        else none
    | .stunFinishes result =>
        if state.stun = .connecting then
          some { state.finish .stun result with stun := .resolved result }
        else none
    | .headStartElapses => some { state with headElapsed := true }
    | .poll start =>
        if state.hasEnabledBranch then
          some (RaceState.pollBranches start.rotation state)
        else
          some { state with outcome := .panicked }

/-! ## What a race promises -/

/-- The attempt that was the first to succeed. -/
def firstSuccess : List (Candidate × ConnectResult) → Option Candidate
  | [] => none
  | (candidate, .ok) :: _ => some candidate
  | (_, .err _) :: rest => firstSuccess rest

/-- No panic, at most one STUN attempt, success with the first attempt that
succeeds, failure only after both attempts have failed. -/
structure RaceState.Safe (state : RaceState) : Prop where
  noPanic : state.outcome ≠ .panicked
  startsOnce : state.stunStarts ≤ 1
  firstWins :
    ∀ candidate,
      state.outcome = .connected candidate →
        firstSuccess state.finished = some candidate
  bothFailed :
    ∀ message,
      state.outcome = .failed message →
        (∃ error, (Candidate.direct, .err error) ∈ state.finished) ∧
          (∃ error, (Candidate.stun, .err error) ∈ state.finished) ∧
            firstSuccess state.finished = none

/-- The attempt has finished, or will on its first poll. -/
def Attempt.HasFinished : Attempt → Prop
  | .unpolled (some _) => True
  | .resolved _ => True
  | _ => False

/-- The attempt has failed, or will on its first poll. -/
def Attempt.HasFailed : Attempt → Prop
  | .unpolled (some _) => True
  | .resolved (.err _) => True
  | _ => False

instance (attempt : Attempt) : Decidable attempt.HasFinished := by
  unfold Attempt.HasFinished
  split <;> infer_instance

instance (attempt : Attempt) : Decidable attempt.HasFailed := by
  unfold Attempt.HasFailed
  split <;> infer_instance

/-- A poll from this start reaches the STUN branch: none of the branches in
front of it is ready. -/
def RaceState.ReachesStun (state : RaceState) (start : SelectBranch) : Prop :=
  state.stunPending = true ∧
    ¬(start = .direct ∧ state.directPending = true ∧
      state.direct.HasFinished)

/-- The loop polls no failed STUN attempt while the direct attempt is still
pending, and of two attempts that have both succeeded it polls the one first
that finished first. -/
def PollsInOrder (state : RaceState) : RaceEvent → Prop
  | .poll start =>
      (state.ReachesStun start → state.stun.HasFailed →
          state.directPending = false) ∧
        (state.direct = .resolved .ok → state.stun = .resolved .ok →
          (start = .direct ↔ firstSuccess state.finished = some .direct))
  | _ => True

instance (state : RaceState) (start : SelectBranch) :
    Decidable (state.ReachesStun start) :=
  inferInstanceAs (Decidable (_ ∧ ¬(_ ∧ _ ∧ _)))

instance (state : RaceState) (event : RaceEvent) :
    Decidable (PollsInOrder state event) :=
  match event with
  | .poll start =>
      inferInstanceAs
        (Decidable
          ((state.ReachesStun start → state.stun.HasFailed →
              state.directPending = false) ∧
            (state.direct = .resolved .ok → state.stun = .resolved .ok →
              (start = .direct ↔
                firstSuccess state.finished = some .direct))))
  | .directFinishes _ => isTrue trivial
  | .stunFinishes _ => isTrue trivial
  | .headStartElapses => isTrue trivial

/-! ## The order in which the attempts finish -/

section FirstSuccess

variable {finished : List (Candidate × ConnectResult)}
  {candidate : Candidate}

theorem mem_of_firstSuccess
    (first : firstSuccess finished = some candidate) :
    (candidate, .ok) ∈ finished := by
  induction finished with
  | nil => cases first
  | cons head rest inductionHypothesis =>
      obtain ⟨other, result⟩ := head
      cases result with
      | ok =>
          rw [← Option.some.inj first]
          exact List.mem_cons_self
      | err error =>
          exact List.mem_cons_of_mem _ (inductionHypothesis first)

theorem firstSuccess_isSome
    (succeeded : (candidate, .ok) ∈ finished) :
    ∃ first, firstSuccess finished = some first := by
  induction finished with
  | nil => cases succeeded
  | cons head rest inductionHypothesis =>
      obtain ⟨other, result⟩ := head
      cases result with
      | ok => exact ⟨other, rfl⟩
      | err error =>
          obtain isHead | inRest := List.mem_cons.mp succeeded
          · cases isHead
          · exact inductionHypothesis inRest

/-- The only one to succeed is the first. -/
theorem firstSuccess_of_only
    (succeeded : (candidate, .ok) ∈ finished)
    (only :
      ∀ other, (other, .ok) ∈ finished → other = candidate) :
    firstSuccess finished = some candidate := by
  obtain ⟨first, isFirst⟩ := firstSuccess_isSome succeeded
  rw [isFirst, only first (mem_of_firstSuccess isFirst)]

theorem firstSuccess_eq_none
    (noneSucceeded : ∀ other, (other, .ok) ∉ finished) :
    firstSuccess finished = none := by
  cases first : firstSuccess finished with
  | none => rfl
  | some other =>
      exact absurd (mem_of_firstSuccess first) (noneSucceeded other)

end FirstSuccess

/-! ## The loop under that condition -/

def Attempt.started : Attempt → Nat
  | .unpolled _ => 0
  | _ => 1

/-- What holds between two iterations of a race that is still open. -/
structure RaceState.Open (state : RaceState) : Prop where
  racing : state.outcome = .racing
  directTaken : state.directPending = false ↔ state.direct = .consumed
  stunFresh : state.stun ≠ .consumed
  stunEnabled : state.directPending = false → state.stunPending = true
  stunPolled : state.stun.started = 1 → state.stunPending = true
  headStarted :
    state.directPending = true → state.stunPending = true →
      state.headElapsed = true
  starts : state.stunStarts = state.stun.started
  directSeen :
    ∀ result, (.direct, result) ∈ state.finished →
      state.direct = .resolved result ∨
        (state.direct = .consumed ∧ result ≠ .ok)
  directKept :
    ∀ result, state.direct = .resolved result →
      (.direct, result) ∈ state.finished
  directFailed :
    state.direct = .consumed →
      ∃ error, (Candidate.direct, .err error) ∈ state.finished
  stunSeen :
    ∀ result,
      (.stun, result) ∈ state.finished ↔ state.stun = .resolved result

/-- A race is open, or it has ended as promised. -/
def RaceState.Kept (state : RaceState) : Prop :=
  state.Open ∨ (state.outcome ≠ .racing ∧ state.Safe)

theorem started_le_one (attempt : Attempt) : attempt.started ≤ 1 := by
  cases attempt <;> simp [Attempt.started]

namespace RaceState.Open

variable {state : RaceState}

theorem safe (isOpen : state.Open) : state.Safe where
  noPanic := by
    rw [isOpen.racing]
    nofun
  startsOnce := by
    rw [isOpen.starts]
    exact started_le_one state.stun
  firstWins := by
    intro candidate connected
    rw [isOpen.racing] at connected
    cases connected
  bothFailed := by
    intro message failed
    rw [isOpen.racing] at failed
    cases failed

theorem stunPending
    (isOpen : state.Open) {result : ConnectResult}
    (resolved : state.stun = .resolved result) :
    state.stunPending = true := by
  apply isOpen.stunPolled
  rw [resolved]
  rfl

/-- The direct attempt is the first to succeed if the other one has not. -/
theorem directFirst
    (isOpen : state.Open) (succeeded : state.direct = .resolved .ok)
    (notOther : state.stun ≠ .resolved .ok) :
    firstSuccess state.finished = some .direct := by
  apply firstSuccess_of_only (isOpen.directKept .ok succeeded)
  intro other seen
  cases other with
  | direct => rfl
  | stun => exact absurd ((isOpen.stunSeen .ok).mp seen) notOther

theorem stunFirst
    (isOpen : state.Open) (succeeded : state.stun = .resolved .ok)
    (notOther : state.direct ≠ .resolved .ok) :
    firstSuccess state.finished = some .stun := by
  apply firstSuccess_of_only ((isOpen.stunSeen .ok).mpr succeeded)
  intro other seen
  cases other with
  | stun => rfl
  | direct =>
      obtain resolved | ⟨-, notOk⟩ := isOpen.directSeen .ok seen
      · exact absurd resolved notOther
      · exact absurd rfl notOk

end RaceState.Open

theorem RaceState.Kept.safe {state : RaceState} (kept : state.Kept) :
    state.Safe := by
  rcases kept with isOpen | ⟨_, safe⟩
  · exact isOpen.safe
  · exact safe

/-! ## Taking a branch -/

/-- What a branch may find when its turn comes. -/
def RaceState.MayTake (state : RaceState) : SelectBranch → Prop
  | .direct =>
      state.direct = .resolved .ok → state.stun = .resolved .ok →
        firstSuccess state.finished = some .direct
  | .headStart => True
  | .stun =>
      state.stunPending = true →
        (state.stun.HasFailed → state.directPending = false) ∧
          (state.direct = .resolved .ok → state.stun = .resolved .ok →
            firstSuccess state.finished = some .stun)

/-- A poll leaves the race open, or takes a step that keeps the promise. -/
def BranchPoll.Kept : BranchPoll → Prop
  | .pending next => next.Open
  | .taken next => next.Kept

/-- The direct connection ends the race. -/
theorem takeDirect_ok_kept
    {state : RaceState} (isOpen : state.Open)
    (first : firstSuccess state.finished = some .direct) :
    (state.takeDirect .ok).Kept := by
  refine Or.inr ⟨nofun, nofun, isOpen.safe.startsOnce, ?_, nofun⟩
  intro candidate connected
  cases connected
  exact first

/-- A failed direct attempt leaves only the STUN attempt.  It has been seen,
at the latest by this poll. -/
theorem takeDirect_err_kept
    {state : RaceState} (isOpen : state.Open) {error : String}
    {finished : List (Candidate × ConnectResult)}
    (recorded : (.direct, .err error) ∈ finished)
    (onlyFailed : ∀ result, (.direct, result) ∈ finished → result ≠ .ok)
    (sameStun :
      ∀ result,
        (.stun, result) ∈ finished ↔ (.stun, result) ∈ state.finished) :
    (RaceState.takeDirect { state with finished := finished }
      (.err error)).Kept := by
  refine Or.inl ?_
  simp only [RaceState.takeDirect, RaceState.settle]
  exact
    { racing := isOpen.racing
      directTaken := ⟨fun _ => rfl, fun _ => rfl⟩
      stunFresh := isOpen.stunFresh
      stunEnabled := fun _ => rfl
      stunPolled := fun _ => rfl
      headStarted := nofun
      starts := isOpen.starts
      directSeen := fun result seen =>
        Or.inr ⟨rfl, onlyFailed result seen⟩
      directKept := nofun
      directFailed := fun _ => ⟨error, recorded⟩
      stunSeen := fun result =>
        (sameStun result).trans (isOpen.stunSeen result) }

/-- The STUN connection ends the race. -/
theorem takeStun_ok_kept
    {state : RaceState} (isOpen : state.Open)
    (first : firstSuccess state.finished = some .stun) :
    (state.takeStun .ok).Kept := by
  refine Or.inr ⟨nofun, nofun, isOpen.safe.startsOnce, ?_, nofun⟩
  intro candidate connected
  cases connected
  exact first

/-- When the direct attempt has already failed, a failed STUN attempt ends the
race with the error of both. -/
theorem takeStun_err_kept
    {state : RaceState} (isOpen : state.Open)
    (directDone : state.directPending = false)
    {error : String} {starts : Nat} (startsOnce : starts ≤ 1)
    {finished : List (Candidate × ConnectResult)}
    (recorded : (.stun, .err error) ∈ finished)
    (onlyFailed : ∀ result, (.stun, result) ∈ finished → result ≠ .ok)
    (sameDirect :
      ∀ result,
        (.direct, result) ∈ finished ↔ (.direct, result) ∈ state.finished) :
    (RaceState.takeStun
      { state with stunStarts := starts, finished := finished }
      (.err error)).Kept := by
  have consumed := isOpen.directTaken.mp directDone
  obtain ⟨directError, directFailed⟩ := isOpen.directFailed consumed
  simp only [RaceState.takeStun, RaceState.settle, directDone]
  refine Or.inr ⟨nofun, nofun, startsOnce, nofun, ?_⟩
  intro message _
  refine
    ⟨⟨directError, (sameDirect _).mpr directFailed⟩, ⟨error, recorded⟩, ?_⟩
  apply firstSuccess_eq_none
  intro other succeeded
  cases other with
  | stun => exact onlyFailed .ok succeeded rfl
  | direct =>
      obtain resolved | ⟨-, notOk⟩ :=
        isOpen.directSeen .ok ((sameDirect _).mp succeeded)
      · rw [consumed] at resolved
        cases resolved
      · exact notOk rfl

namespace RaceState.Open

variable {state : RaceState}

/-- An attempt that starts has not finished. -/
theorem startDirect
    (isOpen : state.Open) (fresh : state.direct = .unpolled none) :
    RaceState.Open { state with direct := .connecting } :=
  { isOpen with
    directTaken := by
      rw [isOpen.directTaken, fresh]
      constructor <;> nofun
    directSeen := by
      intro result seen
      obtain resolved | ⟨consumed, -⟩ := isOpen.directSeen result seen
      · rw [fresh] at resolved
        cases resolved
      · rw [fresh] at consumed
        cases consumed
    directKept := nofun
    directFailed := nofun }

theorem startStun
    (isOpen : state.Open) (fresh : state.stun = .unpolled none)
    (enabled : state.stunPending = true) :
    RaceState.Open
      { state with
        stun := .connecting
        stunStarts := state.stunStarts + 1 } :=
  { isOpen with
    stunFresh := nofun
    stunPolled := fun _ => enabled
    starts := by
      rw [isOpen.starts, fresh]
      rfl
    stunSeen := by
      intro result
      rw [isOpen.stunSeen, fresh]
      constructor <;> nofun }

theorem finishDirect
    (isOpen : state.Open) (connecting : state.direct = .connecting)
    (result : ConnectResult) :
    RaceState.Open
      { state.finish .direct result with direct := .resolved result } :=
  { isOpen with
    directTaken := by
      change state.directPending = false ↔ _
      rw [isOpen.directTaken, connecting]
      constructor <;> nofun
    directSeen := by
      intro other seen
      obtain before | isLast := List.mem_append.mp seen
      · obtain resolved | ⟨consumed, -⟩ := isOpen.directSeen other before
        · rw [connecting] at resolved
          cases resolved
        · rw [connecting] at consumed
          cases consumed
      · cases List.mem_singleton.mp isLast
        exact Or.inl rfl
    directKept := by
      intro other resolved
      cases resolved
      exact List.mem_append_right _ (List.mem_singleton.mpr rfl)
    directFailed := nofun
    stunSeen := by
      intro other
      refine Iff.trans ?_ (isOpen.stunSeen other)
      simp [RaceState.finish] }

theorem finishStun
    (isOpen : state.Open) (connecting : state.stun = .connecting)
    (result : ConnectResult) :
    RaceState.Open
      { state.finish .stun result with stun := .resolved result } :=
  { isOpen with
    stunFresh := nofun
    stunPolled := fun _ =>
      isOpen.stunPolled (by rw [connecting]; rfl)
    starts := by
      change state.stunStarts = _
      rw [isOpen.starts, connecting]
      rfl
    directSeen := by
      intro other seen
      apply isOpen.directSeen
      simpa [RaceState.finish] using seen
    directKept := fun other resolved =>
      List.mem_append_left _ (isOpen.directKept other resolved)
    directFailed := by
      intro consumed
      obtain ⟨error, failed⟩ := isOpen.directFailed consumed
      exact ⟨error, List.mem_append_left _ failed⟩
    stunSeen := by
      intro other
      have notBefore : (.stun, other) ∉ state.finished := by
        rw [isOpen.stunSeen, connecting]
        nofun
      simp [RaceState.finish, notBefore, eq_comm] }

/-- Nothing is recorded of an attempt that was never polled. -/
theorem directUnseen
    (isOpen : state.Open) {atOnce : Option String}
    (fresh : state.direct = .unpolled atOnce) (result : ConnectResult) :
    (.direct, result) ∉ state.finished := by
  intro seen
  obtain resolved | ⟨consumed, -⟩ := isOpen.directSeen result seen
  · rw [fresh] at resolved
    cases resolved
  · rw [fresh] at consumed
    cases consumed

theorem stunUnseen
    (isOpen : state.Open) {atOnce : Option String}
    (fresh : state.stun = .unpolled atOnce) (result : ConnectResult) :
    (.stun, result) ∉ state.finished := by
  rw [isOpen.stunSeen, fresh]
  nofun

end RaceState.Open

theorem pollDirect_kept
    {state : RaceState} (isOpen : state.Open)
    (mayTake : state.MayTake .direct) :
    (state.pollBranch .direct).Kept := by
  rw [RaceState.pollBranch]
  split
  · exact isOpen
  · rename_i enabled
    have pending : state.directPending = true := by
      simpa using enabled
    split
    · rename_i fresh
      exact isOpen.startDirect fresh
    · rename_i error fresh
      apply takeDirect_err_kept isOpen
      · exact List.mem_append_right _ (List.mem_singleton.mpr rfl)
      · intro result seen
        obtain before | isLast := List.mem_append.mp seen
        · exact absurd before (isOpen.directUnseen fresh result)
        · cases List.mem_singleton.mp isLast
          nofun
      · intro result
        simp
    · exact isOpen
    · rename_i result resolved
      cases result with
      | ok =>
          apply takeDirect_ok_kept isOpen
          by_cases other : state.stun = .resolved .ok
          · exact mayTake resolved other
          · exact isOpen.directFirst resolved other
      | err error =>
          apply takeDirect_err_kept isOpen
            (isOpen.directKept _ resolved)
          · intro result seen
            obtain same | ⟨-, notOk⟩ := isOpen.directSeen result seen
            · rw [resolved] at same
              cases same
              nofun
            · exact notOk
          · exact fun _ => Iff.rfl
    · rename_i consumed
      rw [isOpen.directTaken.mpr consumed] at pending
      cases pending

theorem pollHeadStart_kept {state : RaceState} (isOpen : state.Open) :
    (state.pollBranch .headStart).Kept := by
  rw [RaceState.pollBranch]
  split
  · exact isOpen
  · split
    · rename_i elapsed
      refine Or.inl ?_
      simp only [RaceState.settle, Bool.not_true, Bool.and_false]
      exact
        { isOpen with
          stunEnabled := fun _ => rfl
          stunPolled := fun _ => rfl
          headStarted := fun _ _ => elapsed }
    · exact isOpen

theorem pollStun_kept
    {state : RaceState} (isOpen : state.Open)
    (mayTake : state.MayTake .stun) :
    (state.pollBranch .stun).Kept := by
  rw [RaceState.pollBranch]
  split
  · exact isOpen
  · rename_i guarded
    have enabled : state.stunPending = true := by
      simpa using guarded
    obtain ⟨failedLast, inOrder⟩ := mayTake enabled
    split
    · rename_i fresh
      exact isOpen.startStun fresh enabled
    · rename_i error fresh
      rw [fresh] at failedLast
      apply takeStun_err_kept isOpen (failedLast trivial)
      · rw [isOpen.starts, fresh]
        exact Nat.le_refl 1
      · exact List.mem_append_right _ (List.mem_singleton.mpr rfl)
      · intro result seen
        obtain before | isLast := List.mem_append.mp seen
        · exact absurd before (isOpen.stunUnseen fresh result)
        · cases List.mem_singleton.mp isLast
          nofun
      · intro result
        simp [RaceState.finish]
    · exact isOpen
    · rename_i result resolved
      cases result with
      | ok =>
          apply takeStun_ok_kept isOpen
          by_cases other : state.direct = .resolved .ok
          · exact inOrder other resolved
          · exact isOpen.stunFirst resolved other
      | err error =>
          rw [resolved] at failedLast
          apply takeStun_err_kept isOpen (failedLast trivial)
            isOpen.safe.startsOnce ((isOpen.stunSeen _).mpr resolved)
          · intro result seen
            rw [isOpen.stunSeen, resolved] at seen
            cases seen
            nofun
          · exact fun _ => Iff.rfl
    · rename_i attempt
      exact absurd attempt isOpen.stunFresh

theorem pollBranch_kept
    {state : RaceState} (isOpen : state.Open) {branch : SelectBranch}
    (mayTake : state.MayTake branch) :
    (state.pollBranch branch).Kept := by
  cases branch with
  | direct => exact pollDirect_kept isOpen mayTake
  | headStart => exact pollHeadStart_kept isOpen
  | stun => exact pollStun_kept isOpen mayTake

/-! ## One poll of the `select!` -/

/-- The branch that is polled first keeps the race, and so do those behind it
when it is not ready. -/
theorem pollBranches_cons_kept
    {branch : SelectBranch} {rest : List SelectBranch}
    {state : RaceState} (isOpen : state.Open)
    (mayTake : state.MayTake branch)
    (behind :
      ∀ next, state.pollBranch branch = .pending next → next.Open →
        (RaceState.pollBranches rest next).Kept) :
    (RaceState.pollBranches (branch :: rest) state).Kept := by
  have polled := pollBranch_kept isOpen mayTake
  rw [RaceState.pollBranches]
  cases result : state.pollBranch branch with
  | pending next =>
      rw [result] at polled
      exact behind next result polled
  | taken next =>
      rw [result] at polled
      exact polled

/-- A direct branch that is not taken has not finished. -/
theorem pollDirect_pending
    {state next : RaceState}
    (polled : state.pollBranch .direct = .pending next) :
    (state.directPending = true → ¬state.direct.HasFinished) ∧
      (next = state ∨ next = { state with direct := .connecting }) := by
  rw [RaceState.pollBranch] at polled
  split at polled
  · rename_i disabled
    cases polled
    refine ⟨fun pending => ?_, Or.inl rfl⟩
    rw [pending] at disabled
    cases disabled
  · split at polled
    · rename_i fresh
      cases polled
      rw [fresh]
      exact ⟨fun _ => id, Or.inr rfl⟩
    · cases polled
    · rename_i connecting
      cases polled
      rw [connecting]
      exact ⟨fun _ => id, Or.inl rfl⟩
    · cases polled
    · cases polled

theorem pollHeadStart_pending
    {state next : RaceState}
    (polled : state.pollBranch .headStart = .pending next) :
    next = state := by
  rw [RaceState.pollBranch] at polled
  split at polled
  · cases polled
    rfl
  · split at polled
    · cases polled
    · cases polled
      rfl

/-- A STUN branch that is not taken has not succeeded. -/
theorem pollStun_pending
    {state next : RaceState} (isOpen : state.Open)
    (polled : state.pollBranch .stun = .pending next) :
    next.stun ≠ .resolved .ok := by
  rw [RaceState.pollBranch] at polled
  split at polled
  · rename_i disabled
    cases polled
    intro resolved
    rw [isOpen.stunPending resolved] at disabled
    cases disabled
  · split at polled
    · cases polled
      nofun
    · cases polled
    · rename_i connecting
      cases polled
      rw [connecting]
      nofun
    · cases polled
    · cases polled

section OnePoll

variable {state : RaceState} {start : SelectBranch}

/-- The direct branch is polled first: it takes a connection only in its
turn. -/
theorem mayTake_direct
    (inOrder : PollsInOrder state (.poll .direct)) :
    state.MayTake .direct :=
  fun directOk stunOk => (inOrder.2 directOk stunOk).mp rfl

theorem mayTake_headStart : state.MayTake .headStart := trivial

theorem mayTake_direct_alone (notOther : state.stun ≠ .resolved .ok) :
    state.MayTake .direct :=
  fun _ stunOk => absurd stunOk notOther

/-- Behind a direct branch that is not ready, the STUN branch takes what it
finds. -/
theorem mayTake_stun_behind
    (isOpen : state.Open) (inOrder : PollsInOrder state (.poll .direct))
    {next : RaceState} (polled : state.pollBranch .direct = .pending next) :
    next.MayTake .stun := by
  obtain ⟨notReady, unchanged⟩ := pollDirect_pending polled
  have notOk : state.direct ≠ .resolved .ok := by
    intro resolved
    cases pending : state.directPending with
    | true =>
        apply notReady pending
        rw [resolved]
        trivial
    | false =>
        rw [isOpen.directTaken.mp pending] at resolved
        cases resolved
  have reached : state.stunPending = true →
      state.stun.HasFailed → state.directPending = false :=
    fun enabled =>
      inOrder.1 ⟨enabled, fun ⟨_, pending, ready⟩ => notReady pending ready⟩
  obtain rfl | rfl := unchanged
  · exact fun enabled => ⟨reached enabled, fun ok => absurd ok notOk⟩
  · exact fun enabled => ⟨reached enabled, nofun⟩

/-- From any other start the STUN branch is polled before the direct one. -/
theorem mayTake_stun
    (isOpen : state.Open) (inOrder : PollsInOrder state (.poll start))
    (notDirect : start ≠ .direct) :
    state.MayTake .stun := by
  intro enabled
  refine ⟨inOrder.1 ⟨enabled, fun direct => notDirect direct.1⟩, ?_⟩
  intro directOk stunOk
  obtain ⟨first, isFirst⟩ :=
    firstSuccess_isSome ((isOpen.stunSeen .ok).mpr stunOk)
  cases first with
  | stun => exact isFirst
  | direct =>
      exact absurd ((inOrder.2 directOk stunOk).mpr isFirst) notDirect

theorem poll_kept
    (isOpen : state.Open) (inOrder : PollsInOrder state (.poll start)) :
    (RaceState.pollBranches start.rotation state).Kept := by
  cases start with
  | direct =>
      apply pollBranches_cons_kept isOpen (mayTake_direct inOrder)
      intro next polled nextOpen
      apply pollBranches_cons_kept nextOpen mayTake_headStart
      intro third timer thirdOpen
      cases pollHeadStart_pending timer
      apply pollBranches_cons_kept nextOpen
        (mayTake_stun_behind isOpen inOrder polled)
      exact fun last _ lastOpen => Or.inl lastOpen
  | headStart =>
      apply pollBranches_cons_kept isOpen mayTake_headStart
      intro next timer nextOpen
      cases pollHeadStart_pending timer
      apply pollBranches_cons_kept isOpen
        (mayTake_stun isOpen inOrder nofun)
      intro third polled thirdOpen
      apply pollBranches_cons_kept thirdOpen
        (mayTake_direct_alone (pollStun_pending isOpen polled))
      exact fun last _ lastOpen => Or.inl lastOpen
  | stun =>
      apply pollBranches_cons_kept isOpen
        (mayTake_stun isOpen inOrder nofun)
      intro next polled nextOpen
      apply pollBranches_cons_kept nextOpen
        (mayTake_direct_alone (pollStun_pending isOpen polled))
      intro third _ thirdOpen
      apply pollBranches_cons_kept thirdOpen mayTake_headStart
      exact fun last _ lastOpen => Or.inl lastOpen

end OnePoll

/-! ## Whole races -/

theorem raceStep_kept
    {state next : RaceState} {event : RaceEvent}
    (kept : state.Kept) (inOrder : PollsInOrder state event)
    (stepped : raceStep state event = some next) :
    next.Kept := by
  rcases kept with isOpen | ⟨ended, _⟩
  · unfold raceStep at stepped
    rw [if_neg (not_not.mpr isOpen.racing)] at stepped
    cases event with
    | directFinishes result =>
        simp only at stepped
        split at stepped
        · rename_i connecting
          cases stepped
          exact Or.inl (isOpen.finishDirect connecting result)
        · cases stepped
    | stunFinishes result =>
        simp only at stepped
        split at stepped
        · rename_i connecting
          cases stepped
          exact Or.inl (isOpen.finishStun connecting result)
        · cases stepped
    | headStartElapses =>
        cases stepped
        exact Or.inl { isOpen with headStarted := fun _ _ => rfl }
    | poll start =>
        have enabled : state.hasEnabledBranch = true := by
          unfold RaceState.hasEnabledBranch
          cases state.stunPending <;> simp
        simp only [enabled, if_true] at stepped
        cases stepped
        exact poll_kept isOpen inOrder
  · unfold raceStep at stepped
    rw [if_pos ended] at stepped
    cases stepped

theorem initial_open (directAtOnce stunAtOnce : Option String) :
    (RaceState.initial directAtOnce stunAtOnce).Open where
  racing := rfl
  directTaken := by constructor <;> nofun
  stunFresh := nofun
  stunEnabled := nofun
  stunPolled := nofun
  headStarted := nofun
  starts := rfl
  directSeen := nofun
  directKept := nofun
  directFailed := nofun
  stunSeen := by
    intro result
    constructor <;> nofun

/-- Guarded runs keep the promises of the race. -/
theorem guarded_race_kept
    {directAtOnce stunAtOnce : Option String}
    {events : List RaceEvent} {state : RaceState}
    (run :
      Run raceStep PollsInOrder
        (RaceState.initial directAtOnce stunAtOnce) events state) :
    state.Kept :=
  run.preserves RaceState.Kept
    (fun _ _ _ kept inOrder stepped =>
      raceStep_kept kept inOrder stepped)
    (Or.inl (initial_open directAtOnce stunAtOnce))

/-! ## Where the condition fails -/

/-- Taking a failed STUN attempt while the direct one is pending consumes it;
nothing else changes. -/
structure RaceState.LostStun (state : RaceState) : Prop where
  racing : state.outcome = .racing
  consumed : state.stun = .consumed
  disabled : state.stunPending = false
  directPending : state.directPending = true
  headElapsed : state.headElapsed = true

theorem pollStun_lost
    {state : RaceState} (isOpen : state.Open)
    (enabled : state.stunPending = true)
    (hasFailed : state.stun.HasFailed)
    (pending : state.directPending = true) :
    ∃ next, state.pollBranch .stun = .taken next ∧ next.LostStun := by
  have elapsed := isOpen.headStarted pending enabled
  have racing := isOpen.racing
  cases attempt : state.stun with
  | unpolled atOnce =>
      cases atOnce with
      | none =>
          rw [attempt] at hasFailed
          exact hasFailed.elim
      | some error =>
          simp only [RaceState.pollBranch, enabled, attempt,
            RaceState.takeStun, RaceState.settle, RaceState.finish, pending]
          exact ⟨_, rfl, racing, rfl, rfl, rfl, elapsed⟩
  | resolved result =>
      cases result with
      | ok =>
          rw [attempt] at hasFailed
          exact hasFailed.elim
      | err error =>
          simp only [RaceState.pollBranch, enabled, attempt,
            RaceState.takeStun, RaceState.settle, pending]
          exact ⟨_, rfl, racing, rfl, rfl, rfl, elapsed⟩
  | connecting =>
      rw [attempt] at hasFailed
      exact hasFailed.elim
  | consumed =>
      rw [attempt] at hasFailed
      exact hasFailed.elim

section Order

variable {state next : RaceState} {branch : SelectBranch}
  {rest : List SelectBranch}

theorem pollBranches_pending
    (polled : state.pollBranch branch = .pending next) :
    RaceState.pollBranches (branch :: rest) state =
      RaceState.pollBranches rest next := by
  rw [RaceState.pollBranches, polled]

theorem pollBranches_taken
    (polled : state.pollBranch branch = .taken next) :
    RaceState.pollBranches (branch :: rest) state = next := by
  rw [RaceState.pollBranches, polled]

theorem pollHeadStart_enabled (enabled : state.stunPending = true) :
    state.pollBranch .headStart = .pending state := by
  rw [RaceState.pollBranch, if_pos enabled]

/-- A direct attempt that has not finished is started or left alone. -/
theorem pollDirect_not_ready
    (isOpen : state.Open) (pending : state.directPending = true)
    (notReady : ¬state.direct.HasFinished) :
    ∃ direct,
      state.pollBranch .direct =
        .pending { state with direct := direct } := by
  cases attempt : state.direct with
  | unpolled atOnce =>
      cases atOnce with
      | none =>
          refine ⟨.connecting, ?_⟩
          simp [RaceState.pollBranch, pending, attempt]
      | some error =>
          rw [attempt] at notReady
          exact absurd trivial notReady
  | connecting =>
      have polled : state.pollBranch .direct = .pending state := by
        simp [RaceState.pollBranch, pending, attempt]
      exact ⟨state.direct, polled⟩
  | resolved result =>
      rw [attempt] at notReady
      exact absurd trivial notReady
  | consumed =>
      rw [isOpen.directTaken.mpr attempt] at pending
      cases pending

end Order

theorem raceStep_poll
    {state : RaceState} (racing : state.outcome = .racing)
    (start : SelectBranch) :
    raceStep state (.poll start) =
      some (RaceState.pollBranches start.rotation state) := by
  unfold raceStep
  rw [if_neg (not_not.mpr racing)]
  cases enabled : state.stunPending <;>
    simp [RaceState.hasEnabledBranch, enabled]

/-- A poll that reaches a failed STUN attempt takes it. -/
theorem poll_lost
    {state : RaceState} (isOpen : state.Open) {start : SelectBranch}
    (reached : state.ReachesStun start)
    (hasFailed : state.stun.HasFailed)
    (pending : state.directPending = true) :
    (RaceState.pollBranches start.rotation state).LostStun := by
  obtain ⟨enabled, notReady⟩ := reached
  obtain ⟨next, taken, lost⟩ :=
    pollStun_lost isOpen enabled hasFailed pending
  cases start with
  | direct =>
      have unfinished : ¬state.direct.HasFinished :=
        fun ready => notReady ⟨rfl, pending, ready⟩
      obtain ⟨direct, polled⟩ :=
        pollDirect_not_ready isOpen pending unfinished
      have nextOpen : RaceState.Open { state with direct := direct } := by
        have kept := pollDirect_kept isOpen
          (fun resolved => absurd (by rw [resolved]; trivial) unfinished)
        rw [polled] at kept
        exact kept
      obtain ⟨last, lastTaken, lastLost⟩ :=
        pollStun_lost nextOpen enabled hasFailed pending
      have timer := pollHeadStart_enabled
        (show RaceState.stunPending { state with direct := direct } = true
          from enabled)
      rw [SelectBranch.rotation, pollBranches_pending polled,
        pollBranches_pending timer, pollBranches_taken lastTaken]
      exact lastLost
  | headStart =>
      rw [SelectBranch.rotation,
        pollBranches_pending (pollHeadStart_enabled enabled),
        pollBranches_taken taken]
      exact lost
  | stun =>
      rw [SelectBranch.rotation, pollBranches_taken taken]
      exact lost

/-- The elapsed timer is ready again and re-enables the STUN branch, whose
future has completed. -/
theorem RaceState.LostStun.panics
    {state : RaceState} (lost : state.LostStun) :
    ∃ final,
      replay raceStep state [.poll .headStart, .poll .stun] =
          some final ∧
        final.outcome = .panicked := by
  simp [replay, raceStep, lost.racing, RaceState.hasEnabledBranch,
    lost.directPending, RaceState.pollBranches, SelectBranch.rotation,
    RaceState.pollBranch, lost.disabled, lost.headElapsed,
    RaceState.settle, lost.consumed]

/-- Of two attempts that have succeeded, the start of the poll decides. -/
theorem poll_both_succeeded
    {state : RaceState} (isOpen : state.Open) {start : SelectBranch}
    (directOk : state.direct = .resolved .ok)
    (stunOk : state.stun = .resolved .ok) :
    RaceState.pollBranches start.rotation state =
      if start = .direct then state.takeDirect .ok
      else state.takeStun .ok := by
  have enabled := isOpen.stunPending stunOk
  have pending : state.directPending = true := by
    cases taken : state.directPending with
    | true => rfl
    | false =>
        rw [isOpen.directTaken.mp taken] at directOk
        cases directOk
  have direct : state.pollBranch .direct = .taken (state.takeDirect .ok) := by
    simp [RaceState.pollBranch, pending, directOk]
  have stun : state.pollBranch .stun = .taken (state.takeStun .ok) := by
    simp [RaceState.pollBranch, enabled, stunOk]
  cases start with
  | direct => exact pollBranches_taken direct
  | headStart =>
      rw [SelectBranch.rotation,
        pollBranches_pending (pollHeadStart_enabled enabled)]
      exact pollBranches_taken stun
  | stun => exact pollBranches_taken stun

/-- A poll that starts at the attempt that finished second returns it. -/
theorem poll_returns_second
    {state : RaceState} (isOpen : state.Open) {start : SelectBranch}
    (directOk : state.direct = .resolved .ok)
    (stunOk : state.stun = .resolved .ok)
    (outOfOrder :
      ¬(start = .direct ↔ firstSuccess state.finished = some .direct)) :
    ¬(RaceState.pollBranches start.rotation state).Safe := by
  rw [poll_both_succeeded isOpen directOk stunOk]
  intro safe
  split at safe
  · rename_i isDirect
    exact outOfOrder
      ⟨fun _ => safe.firstWins .direct rfl, fun _ => isDirect⟩
  · rename_i notDirect
    have first : firstSuccess state.finished = some .stun :=
      safe.firstWins .stun rfl
    apply outOfOrder
    rw [first]
    exact ⟨fun isDirect => absurd isDirect notDirect, nofun⟩

/-- As long as the polls are in order, the race keeps its promises.  After any
other poll it breaks one of them, at the latest two polls later. -/
theorem race_safe_exactly
    (directAtOnce stunAtOnce : Option String)
    (events : List RaceEvent) (state : RaceState)
    (run :
      Run raceStep PollsInOrder
        (RaceState.initial directAtOnce stunAtOnce) events state) :
    state.Safe ∧
      (state.outcome = .racing →
        ∀ start, ¬PollsInOrder state (.poll start) →
          ∃ rest final,
            replay raceStep state (.poll start :: rest) = some final ∧
              ¬final.Safe) := by
  have kept := guarded_race_kept run
  refine ⟨kept.safe, ?_⟩
  intro racing start violated
  have isOpen : state.Open := by
    rcases kept with isOpen | ⟨ended, _⟩
    · exact isOpen
    · exact absurd racing ended
  have stepped := raceStep_poll racing start
  rw [PollsInOrder, not_and_or] at violated
  obtain failsFirst | outOfOrder := violated
  · simp only [Classical.not_imp, Bool.not_eq_false] at failsFirst
    obtain ⟨reached, hasFailed, pending⟩ := failsFirst
    obtain ⟨final, ran, panicked⟩ :=
      (poll_lost isOpen reached hasFailed pending).panics
    exact
      ⟨_, final, replay_cons_eq_some.mpr ⟨_, stepped, ran⟩,
        fun safe => safe.noPanic panicked⟩
  · simp only [Classical.not_imp] at outOfOrder
    obtain ⟨directOk, stunOk, outOfOrder⟩ := outOfOrder
    exact
      ⟨[], _, replay_cons_eq_some.mpr ⟨_, stepped, rfl⟩,
        poll_returns_second isOpen directOk stunOk outOfOrder⟩

/-- The head start elapses, the STUN attempt fails, and only then does the
direct attempt succeed. -/
def stunFailsFirst : List RaceEvent :=
  [.poll .direct, .headStartElapses, .poll .headStart, .poll .stun,
    .stunFinishes (.err "unreachable"), .poll .stun, .poll .headStart,
    .poll .stun]

/-- The loop polls the completed STUN future and panics. -/
theorem race_panics_after_stun_failure :
    ¬ ∀ (directAtOnce stunAtOnce : Option String)
        (events : List RaceEvent) (state : RaceState),
        replay raceStep
            (RaceState.initial directAtOnce stunAtOnce) events =
          some state →
        state.Safe := by
  intro safe
  have panicked :
      (replay raceStep (RaceState.initial none none)
        stunFailsFirst).map RaceState.outcome = some .panicked := by
    decide
  obtain ⟨state, ran, outcome⟩ := Option.map_eq_some_iff.mp panicked
  exact (safe none none stunFailsFirst state ran).noPanic outcome

/-- With the failures in the other order the STUN connection is returned. -/
theorem race_safe_direct_fails_first :
    ∃ state : RaceState,
        state.outcome = .connected .stun ∧ state.Safe := by
  have reached :
      (guardedReplay raceStep PollsInOrder
        (RaceState.initial none none)
        [.poll .direct, .directFinishes (.err "unreachable"),
          .poll .direct, .poll .stun, .stunFinishes .ok,
          .poll .headStart]).map
        RaceState.outcome = some (.connected .stun) := by
    decide
  obtain ⟨state, ran, outcome⟩ := Option.map_eq_some_iff.mp reached
  exact
    ⟨state, outcome,
      (race_safe_exactly none none _ state
        (run_of_guardedReplay ran)).1⟩

end Quiczilla
