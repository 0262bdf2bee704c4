import Quiczilla.CandidateRace
import Quiczilla.Types

/-!
# The connection that the one-shot worker serves

One auto-mode client races its two candidates against one ephemeral worker.
The listener puts a connection on `conn_tx` in its `NEW_CONNECTION` callback,
before the handshake and before `PEER_CERTIFICATE_RECEIVED` looks at the peer's
thumbprint.  `main` of the worker receives exactly one connection from
`conn_rx` and hands it to `handle_incoming_connection`.
-/

namespace Quiczilla

open Foundation

/-- Whoever opens a connection to the worker: a candidate of the client, or
some other party.  Each connector stands for one connection. -/
inductive Connector where
  | client (candidate : Candidate)
  | stranger (name : Nat)
  deriving DecidableEq, Repr

/-- The client's race and the worker's listener.  `launched` holds the
candidates whose `ConnectionStart` was called; `refused`, `queued` and
`authorised` record what the callbacks did with each connection. -/
structure SessionState where
  race : RaceState
  allowedPeerThumbprints : List String
  launched : List Candidate
  refused : List Connector
  queued : List Connector
  authorised : List Connector
  rejected : List Connector
  connQueue : List Connector
  session : Option Connector
  deriving DecidableEq, Repr

def SessionState.initial
    (allowedPeerThumbprints : List String)
    (directAtOnce stunAtOnce : Option String) : SessionState where
  race := RaceState.initial directAtOnce stunAtOnce
  allowedPeerThumbprints := allowedPeerThumbprints
  launched := []
  refused := []
  queued := []
  authorised := []
  rejected := []
  connQueue := []
  session := none

/-- The `NEW_CONNECTION` branch of `listener_callback`.  `configured` is
whether `ConnectionSetConfiguration` succeeded or is pending. -/
def listenerCallback
    (state : SessionState) (connector : Connector) (configured : Bool) :
    SessionState :=
  if configured then
    { state with
      queued := state.queued ++ [connector]
      connQueue := state.connQueue ++ [connector] }
  else
    { state with refused := connector :: state.refused }

/-- The `PEER_CERTIFICATE_RECEIVED` branch of `connection_callback`.  An empty
list of thumbprints admits everyone. -/
def certificateAccepted
    (allowedPeerThumbprints : List String)
    (actualThumbprint : Option String) : Bool :=
  if allowedPeerThumbprints.isEmpty then true
  else
    match actualThumbprint with
    | none => false
    | some actual =>
        allowedPeerThumbprints.any fun expected =>
          eqIgnoreAsciiCase actual expected

def certificateReceived
    (state : SessionState) (connector : Connector)
    (actualThumbprint : Option String) : SessionState :=
  if certificateAccepted state.allowedPeerThumbprints actualThumbprint then
    { state with authorised := connector :: state.authorised }
  else
    { state with rejected := connector :: state.rejected }

/-- A connection of the client arrives after its `ConnectionStart`, and every
connection arrives once. -/
def SessionState.mayArrive
    (state : SessionState) (connector : Connector) : Bool :=
  !state.queued.contains connector && !state.refused.contains connector &&
    match connector with
    | .client candidate => state.launched.contains candidate
    | .stranger _ => true

/-- The client's handshake completes only with a connection that the listener
has queued and whose certificate it has accepted. -/
def SessionState.handshakeAllows
    (state : SessionState) : RaceEvent → Bool
  | .directFinishes .ok => state.authorised.contains (.client .direct)
  | .stunFinishes .ok => state.authorised.contains (.client .stun)
  | _ => true

/-- Record the attempts that a poll has started. -/
def SessionState.afterRace
    (state : SessionState) (race : RaceState) : SessionState :=
  { state with
    race := race
    launched :=
      (if race.direct = .connecting then [Candidate.direct] else []) ++
        (if race.stun = .connecting then [Candidate.stun] else []) ++
          state.launched }

inductive SessionEvent where
  | newConnection (connector : Connector) (configured : Bool)
  | certificate (connector : Connector) (actualThumbprint : Option String)
  | race (event : RaceEvent)
  | workerReceives
  deriving DecidableEq, Repr

def sessionStep
    (state : SessionState) : SessionEvent → Option SessionState
  | .newConnection connector configured =>
      if state.mayArrive connector then
        some (listenerCallback state connector configured)
      else none
  | .certificate connector actualThumbprint =>
      if state.queued.contains connector then
        some (certificateReceived state connector actualThumbprint)
      else none
  | .race event =>
      if state.handshakeAllows event then
        (raceStep state.race event).map state.afterRace
      else none
  | .workerReceives =>
      match state.session, state.connQueue with
      | none, connector :: rest =>
          some { state with session := some connector, connQueue := rest }
      | _, _ => none

/-- The connection of the worker's single session: the one it has taken, or
else the one it takes next. -/
def SessionState.served (state : SessionState) : Option Connector :=
  state.session.or state.connQueue.head?

/-- Whatever connection the race returned is the one that is served. -/
def SessionState.Agreed (state : SessionState) : Prop :=
  ∀ candidate, state.race.outcome = .connected candidate →
    state.served = some (.client candidate)

def RaceState.attempt (state : RaceState) : Candidate → Attempt
  | .direct => state.direct
  | .stun => state.stun

def RaceState.pending (state : RaceState) : Candidate → Bool
  | .direct => state.directPending
  | .stun => state.stunPending

def Candidate.branch : Candidate → SelectBranch
  | .direct => .direct
  | .stun => .stun

/-- The candidate's branch is enabled and its handshake has completed. -/
def RaceState.Ready (state : RaceState) (candidate : Candidate) : Prop :=
  state.pending candidate = true ∧
    state.attempt candidate = .resolved .ok

instance (state : RaceState) (candidate : Candidate) :
    Decidable (state.Ready candidate) :=
  inferInstanceAs (Decidable (_ ∧ _))

/-- Whenever the loop polls, every candidate that is ready was the first
connection that the listener queued. -/
def ReadyWasQueuedFirst (state : SessionState) : SessionEvent → Prop
  | .race (.poll _) =>
      ∀ candidate, state.race.Ready candidate →
        state.queued.head? = some (.client candidate)
  | _ => True

/-! ## What the race returns -/

theorem settle_outcome
    {state : RaceState} {candidate : Candidate}
    (notYet : state.outcome ≠ .connected candidate) :
    state.settle.outcome ≠ .connected candidate := by
  unfold RaceState.settle
  split
  · nofun
  · exact notYet

theorem takeDirect_connected
    {state : RaceState} {result : ConnectResult} {candidate : Candidate}
    (notYet : state.outcome = .racing)
    (connected :
      (state.takeDirect result).outcome = .connected candidate) :
    candidate = .direct ∧ result = .ok := by
  cases result with
  | ok =>
      cases connected
      exact ⟨rfl, rfl⟩
  | err error =>
      refine absurd connected (settle_outcome ?_)
      rw [notYet]
      nofun

theorem takeStun_connected
    {state : RaceState} {result : ConnectResult} {candidate : Candidate}
    (notYet : state.outcome = .racing)
    (connected :
      (state.takeStun result).outcome = .connected candidate) :
    candidate = .stun ∧ result = .ok := by
  cases result with
  | ok =>
      cases connected
      exact ⟨rfl, rfl⟩
  | err error =>
      refine absurd connected (settle_outcome ?_)
      rw [notYet]
      nofun

/-- A branch that stays pending makes no candidate ready; one that is taken
returns only a candidate that is. -/
def BranchPoll.ReturnsReady (before : RaceState) : BranchPoll → Prop
  | .pending next =>
      next.outcome = .racing ∧
        ∀ candidate, next.Ready candidate → before.Ready candidate
  | .taken next =>
      ∀ candidate, next.outcome = .connected candidate →
        before.Ready candidate

theorem pollDirect_returnsReady
    {state : RaceState} (racing : state.outcome = .racing) :
    (state.pollBranch .direct).ReturnsReady state := by
  rw [RaceState.pollBranch]
  split
  · exact ⟨racing, fun _ ready => ready⟩
  · rename_i enabled
    have pending : state.directPending = true := by
      simpa using enabled
    split
    · refine ⟨racing, ?_⟩
      intro candidate ready
      cases candidate with
      | direct =>
          cases ready.2
      | stun =>
          exact ready
    · rename_i error _
      intro candidate connected
      have finished :
          (state.finish .direct (.err error)).outcome = .racing := racing
      cases (takeDirect_connected finished connected).2
    · exact ⟨racing, fun _ ready => ready⟩
    · rename_i attempt
      intro candidate connected
      obtain ⟨rfl, rfl⟩ := takeDirect_connected racing connected
      exact ⟨pending, attempt⟩
    · intro candidate connected
      cases connected

theorem pollHeadStart_returnsReady
    {state : RaceState} (racing : state.outcome = .racing) :
    (state.pollBranch .headStart).ReturnsReady state := by
  rw [RaceState.pollBranch]
  split
  · exact ⟨racing, fun _ ready => ready⟩
  · split
    · intro candidate connected
      refine absurd connected (settle_outcome ?_)
      rw [racing]
      simp
    · exact ⟨racing, fun _ ready => ready⟩

theorem pollStun_returnsReady
    {state : RaceState} (racing : state.outcome = .racing) :
    (state.pollBranch .stun).ReturnsReady state := by
  rw [RaceState.pollBranch]
  split
  · exact ⟨racing, fun _ ready => ready⟩
  · rename_i enabled
    have pending : state.stunPending = true := by
      simpa using enabled
    split
    · refine ⟨racing, ?_⟩
      intro candidate ready
      cases candidate with
      | direct =>
          exact ready
      | stun =>
          cases ready.2
    · rename_i error _
      intro candidate connected
      have startedRacing :
          RaceState.outcome
              { state.finish .stun (.err error) with
                stunStarts := state.stunStarts + 1 } =
            .racing := racing
      cases (takeStun_connected startedRacing connected).2
    · exact ⟨racing, fun _ ready => ready⟩
    · rename_i attempt
      intro candidate connected
      obtain ⟨rfl, rfl⟩ := takeStun_connected racing connected
      exact ⟨pending, attempt⟩
    · intro candidate connected
      cases connected

theorem pollBranches_returnsReady
    {branches : List SelectBranch} {state : RaceState}
    (racing : state.outcome = .racing) {candidate : Candidate}
    (connected :
      (RaceState.pollBranches branches state).outcome =
        .connected candidate) :
    state.Ready candidate := by
  induction branches generalizing state with
  | nil =>
      rw [RaceState.pollBranches, racing] at connected
      cases connected
  | cons branch rest inductionHypothesis =>
      have polled : (state.pollBranch branch).ReturnsReady state := by
        cases branch with
        | direct =>
            exact pollDirect_returnsReady racing
        | headStart =>
            exact pollHeadStart_returnsReady racing
        | stun =>
            exact pollStun_returnsReady racing
      rw [RaceState.pollBranches] at connected
      cases result : state.pollBranch branch with
      | pending next =>
          rw [result] at polled connected
          exact polled.2 candidate
            (inductionHypothesis polled.1 connected)
      | taken next =>
          rw [result] at polled connected
          exact polled candidate connected

/-- The loop returns a connection only in a poll, and only that of a candidate
that was ready. -/
theorem raceStep_connected
    {state next : RaceState} {event : RaceEvent} {candidate : Candidate}
    (stepped : raceStep state event = some next)
    (connected : next.outcome = .connected candidate) :
    (∃ start, event = .poll start) ∧ state.Ready candidate := by
  unfold raceStep at stepped
  split at stepped
  · cases stepped
  · rename_i notEnded
    have racing : state.outcome = .racing := not_not.mp notEnded
    cases event with
    | directFinishes result =>
        simp only at stepped
        split at stepped <;> cases stepped
        cases racing.symm.trans connected
    | stunFinishes result =>
        simp only at stepped
        split at stepped <;> cases stepped
        cases racing.symm.trans connected
    | headStartElapses =>
        cases stepped
        cases racing.symm.trans connected
    | poll start =>
        simp only at stepped
        split at stepped <;> cases stepped
        · exact
            ⟨⟨start, rfl⟩, pollBranches_returnsReady racing connected⟩
        · cases connected

/-- Polling from the branch of a ready candidate returns its connection. -/
theorem raceStep_poll_ready
    {state : RaceState} (racing : state.outcome = .racing)
    {candidate : Candidate} (ready : state.Ready candidate) :
    ∃ next, raceStep state (.poll candidate.branch) = some next ∧
      next.outcome = .connected candidate := by
  obtain ⟨enabled, resolved⟩ := ready
  cases candidate with
  | direct =>
      have pending : state.directPending = true := enabled
      have attempt : state.direct = .resolved .ok := resolved
      refine ⟨state.takeDirect .ok, ?_, rfl⟩
      simp [raceStep, racing, RaceState.hasEnabledBranch, pending, attempt,
        Candidate.branch, SelectBranch.rotation, RaceState.pollBranches,
        RaceState.pollBranch]
  | stun =>
      have pending : state.stunPending = true := enabled
      have attempt : state.stun = .resolved .ok := resolved
      refine ⟨state.takeStun .ok, ?_, rfl⟩
      simp [raceStep, racing, RaceState.hasEnabledBranch, pending, attempt,
        Candidate.branch, SelectBranch.rotation, RaceState.pollBranches,
        RaceState.pollBranch]

/-- No attempt of the right state has newly succeeded. -/
def RaceState.NoNewSuccess (before next : RaceState) : Prop :=
  ∀ candidate, next.attempt candidate = .resolved .ok →
    before.attempt candidate = .resolved .ok

def BranchPoll.state : BranchPoll → RaceState
  | .pending state => state
  | .taken state => state

theorem noNewSuccess_consumes
    {before next : RaceState} (candidate : Candidate)
    (fresh : next.attempt candidate ≠ .resolved .ok)
    (others :
      ∀ other, other ≠ candidate →
        next.attempt other = before.attempt other) :
    before.NoNewSuccess next := by
  intro other succeeded
  by_cases same : other = candidate
  · rw [same] at succeeded
    exact absurd succeeded fresh
  · rwa [others other same] at succeeded

theorem settle_attempt (state : RaceState) (candidate : Candidate) :
    state.settle.attempt candidate = state.attempt candidate := by
  unfold RaceState.settle
  split <;> cases candidate <;> rfl

theorem takeDirect_noNewSuccess
    (state : RaceState) (result : ConnectResult) :
    state.NoNewSuccess (state.takeDirect result) := by
  apply noNewSuccess_consumes .direct
  · cases result with
    | ok =>
        intro resolved
        cases resolved
    | err error =>
        rw [RaceState.takeDirect, settle_attempt]
        intro resolved
        cases resolved
  · intro other different
    cases other with
    | direct =>
        exact absurd rfl different
    | stun =>
        cases result with
        | ok =>
            rfl
        | err error =>
            exact settle_attempt _ _

theorem takeStun_noNewSuccess
    (state : RaceState) (result : ConnectResult) :
    state.NoNewSuccess (state.takeStun result) := by
  apply noNewSuccess_consumes .stun
  · cases result with
    | ok =>
        intro resolved
        cases resolved
    | err error =>
        rw [RaceState.takeStun, settle_attempt]
        intro resolved
        cases resolved
  · intro other different
    cases other with
    | direct =>
        cases result with
        | ok =>
            rfl
        | err error =>
            exact settle_attempt _ _
    | stun =>
        exact absurd rfl different

theorem pollBranch_noNewSuccess
    (state : RaceState) (branch : SelectBranch) :
    state.NoNewSuccess (state.pollBranch branch).state := by
  have unchanged : state.NoNewSuccess state := fun _ succeeded => succeeded
  cases branch with
  | direct =>
      rw [RaceState.pollBranch]
      split
      · exact unchanged
      · split
        · apply noNewSuccess_consumes .direct
          · intro resolved
            cases resolved
          · intro other different
            cases other with
            | direct =>
                exact absurd rfl different
            | stun =>
                rfl
        · rename_i error _
          intro candidate succeeded
          have before :=
            takeDirect_noNewSuccess (state.finish .direct (.err error))
              (.err error) candidate succeeded
          cases candidate <;> exact before
        · exact unchanged
        · exact takeDirect_noNewSuccess state _
        · exact unchanged
  | headStart =>
      rw [RaceState.pollBranch]
      split
      · exact unchanged
      · split
        · intro candidate succeeded
          rw [BranchPoll.state, settle_attempt] at succeeded
          cases candidate <;> exact succeeded
        · exact unchanged
  | stun =>
      rw [RaceState.pollBranch]
      split
      · exact unchanged
      · split
        · apply noNewSuccess_consumes .stun
          · intro resolved
            cases resolved
          · intro other different
            cases other with
            | direct =>
                rfl
            | stun =>
                exact absurd rfl different
        · rename_i error _
          intro candidate succeeded
          have before :=
            takeStun_noNewSuccess
              { state.finish .stun (.err error) with
                stunStarts := state.stunStarts + 1 }
              (.err error) candidate succeeded
          cases candidate <;> exact before
        · exact unchanged
        · exact takeStun_noNewSuccess state _
        · exact unchanged

theorem pollBranches_noNewSuccess
    (branches : List SelectBranch) (state : RaceState) :
    state.NoNewSuccess (RaceState.pollBranches branches state) := by
  induction branches generalizing state with
  | nil =>
      exact fun _ succeeded => succeeded
  | cons branch rest inductionHypothesis =>
      have polled := pollBranch_noNewSuccess state branch
      rw [RaceState.pollBranches]
      cases result : state.pollBranch branch with
      | pending next =>
          rw [result] at polled
          exact fun candidate succeeded =>
            polled candidate
              (inductionHypothesis next candidate succeeded)
      | taken next =>
          rw [result] at polled
          exact polled

/-- Only the completion of a handshake makes an attempt succeed. -/
theorem raceStep_succeeded
    {state next : RaceState} {event : RaceEvent} {candidate : Candidate}
    (stepped : raceStep state event = some next)
    (succeeded : next.attempt candidate = .resolved .ok) :
    state.attempt candidate = .resolved .ok ∨
      (candidate = .direct ∧ event = .directFinishes .ok) ∨
      (candidate = .stun ∧ event = .stunFinishes .ok) := by
  unfold raceStep at stepped
  split at stepped
  · cases stepped
  · cases event with
    | directFinishes result =>
        simp only at stepped
        split at stepped <;> cases stepped
        cases candidate with
        | direct =>
            cases succeeded
            exact Or.inr (Or.inl ⟨rfl, rfl⟩)
        | stun =>
            exact Or.inl succeeded
    | stunFinishes result =>
        simp only at stepped
        split at stepped <;> cases stepped
        cases candidate with
        | direct =>
            exact Or.inl succeeded
        | stun =>
            cases succeeded
            exact Or.inr (Or.inr ⟨rfl, rfl⟩)
    | headStartElapses =>
        cases stepped
        cases candidate <;> exact Or.inl succeeded
    | poll start =>
        simp only at stepped
        split at stepped <;> cases stepped
        · exact
            Or.inl
              (pollBranches_noNewSuccess _ state candidate succeeded)
        · cases candidate <;> exact Or.inl succeeded

/-! ## One queue, one session -/

/-- The worker takes connections in the order in which the listener queued
them, and a candidate whose handshake has completed is among them. -/
structure SessionState.Consistent (state : SessionState) : Prop where
  servedInOrder :
    state.session.toList ++ state.connQueue = state.queued
  authorisedQueued :
    ∀ connector ∈ state.authorised, connector ∈ state.queued
  succeededAuthorised :
    ∀ candidate, state.race.attempt candidate = .resolved .ok →
      Connector.client candidate ∈ state.authorised

theorem SessionState.Consistent.served_eq
    {state : SessionState} (consistent : state.Consistent) :
    state.served = state.queued.head? := by
  rw [← consistent.servedInOrder, SessionState.served]
  cases state.session <;> rfl

/-- What one step does to the listener's queue and to the race. -/
theorem sessionStep_consistent
    {state next : SessionState} {event : SessionEvent}
    (consistent : state.Consistent)
    (stepped : sessionStep state event = some next) :
    next.Consistent ∧ state.queued <+: next.queued := by
  cases event with
  | newConnection connector configured =>
      simp only [sessionStep] at stepped
      split at stepped <;> cases stepped
      cases configured with
      | false =>
          exact ⟨{ consistent with }, List.prefix_rfl⟩
      | true =>
          refine ⟨⟨?_, ?_, consistent.succeededAuthorised⟩,
            List.prefix_append _ _⟩
          · simp only [listenerCallback, if_true]
            rw [← List.append_assoc, consistent.servedInOrder]
          · intro other member
            exact
              List.mem_append_left _
                (consistent.authorisedQueued other member)
  | certificate connector actualThumbprint =>
      simp only [sessionStep] at stepped
      split at stepped <;> cases stepped
      rename_i queued
      unfold certificateReceived
      split
      · refine ⟨⟨consistent.servedInOrder, ?_, ?_⟩, List.prefix_rfl⟩
        · intro other member
          rcases List.mem_cons.mp member with rfl | earlier
          · simpa using queued
          · exact consistent.authorisedQueued other earlier
        · intro candidate succeeded
          exact
            List.mem_cons_of_mem _
              (consistent.succeededAuthorised candidate succeeded)
      · exact ⟨{ consistent with }, List.prefix_rfl⟩
  | race event =>
      simp only [sessionStep] at stepped
      split at stepped
      · rename_i allowed
        obtain ⟨race, raced, rfl⟩ := Option.map_eq_some_iff.mp stepped
        refine ⟨⟨consistent.servedInOrder, consistent.authorisedQueued,
          ?_⟩, List.prefix_rfl⟩
        intro candidate succeeded
        rcases raceStep_succeeded raced succeeded with
          before | ⟨rfl, rfl⟩ | ⟨rfl, rfl⟩
        · exact consistent.succeededAuthorised candidate before
        · exact List.contains_iff_mem.mp allowed
        · exact List.contains_iff_mem.mp allowed
      · cases stepped
  | workerReceives =>
      simp only [sessionStep] at stepped
      split at stepped
      · rename_i connector rest noSession queue
        cases stepped
        refine ⟨⟨?_, consistent.authorisedQueued,
          consistent.succeededAuthorised⟩, List.prefix_rfl⟩
        rw [← consistent.servedInOrder, noSession, queue]
        rfl
      · cases stepped

theorem initial_consistent
    (allowedPeerThumbprints : List String)
    (directAtOnce stunAtOnce : Option String) :
    (SessionState.initial allowedPeerThumbprints directAtOnce
      stunAtOnce).Consistent where
  servedInOrder := rfl
  authorisedQueued := nofun
  succeededAuthorised := by
    intro candidate succeeded
    cases candidate <;> cases succeeded

theorem head?_of_prefix
    {shorter longer : List Connector} {connector : Connector}
    (extended : shorter <+: longer)
    (first : shorter.head? = some connector) :
    longer.head? = some connector := by
  obtain ⟨rest, rfl⟩ := extended
  rw [List.head?_append, first]
  rfl

def SessionState.HasFirst
    (connector : Connector) (state : SessionState) : Prop :=
  state.Consistent ∧ state.queued.head? = some connector

theorem sessionStep_hasFirst
    {state next : SessionState} {event : SessionEvent}
    {connector : Connector}
    (before : state.HasFirst connector)
    (stepped : sessionStep state event = some next) :
    next.HasFirst connector := by
  obtain ⟨consistent, extended⟩ :=
    sessionStep_consistent before.1 stepped
  exact ⟨consistent, head?_of_prefix extended before.2⟩

/-- The first connection of the queue keeps its place for good. -/
theorem first_queued_is_final
    {state final : SessionState} {events : List SessionEvent}
    {connector : Connector}
    (consistent : state.Consistent)
    (first : state.queued.head? = some connector)
    (ran : replay sessionStep state events = some final) :
    final.served = some connector := by
  have kept : final.HasFirst connector :=
    (run_of_replay ran).preserves (SessionState.HasFirst connector)
      (fun _ _ _ before _ stepped =>
        sessionStep_hasFirst before stepped)
      ⟨consistent, first⟩
  rw [kept.1.served_eq, kept.2]

/-- What guarded runs keep: a returned connection was queued first. -/
def SessionState.Kept (state : SessionState) : Prop :=
  state.Consistent ∧
    ∀ candidate, state.race.outcome = .connected candidate →
      state.queued.head? = some (.client candidate)

theorem sessionStep_kept
    {state next : SessionState} {event : SessionEvent}
    (kept : state.Kept) (readyFirst : ReadyWasQueuedFirst state event)
    (stepped : sessionStep state event = some next) :
    next.Kept := by
  obtain ⟨consistent, extended⟩ :=
    sessionStep_consistent kept.1 stepped
  refine ⟨consistent, ?_⟩
  intro candidate connected
  apply head?_of_prefix extended
  cases event with
  | newConnection connector configured =>
      simp only [sessionStep] at stepped
      split at stepped <;> cases stepped
      cases configured <;> exact kept.2 candidate connected
  | certificate connector actualThumbprint =>
      simp only [sessionStep] at stepped
      split at stepped <;> cases stepped
      unfold certificateReceived at connected
      split at connected <;> exact kept.2 candidate connected
  | race event =>
      simp only [sessionStep] at stepped
      split at stepped
      · obtain ⟨race, raced, rfl⟩ := Option.map_eq_some_iff.mp stepped
        obtain ⟨⟨start, rfl⟩, ready⟩ := raceStep_connected raced connected
        exact readyFirst candidate ready
      · cases stepped
  | workerReceives =>
      simp only [sessionStep] at stepped
      split at stepped <;> cases stepped
      exact kept.2 candidate connected

/-- As long as the loop is polled with no other candidate ready than the one
that the listener queued first, client and worker agree.  Where another one is
ready, a poll returns its connection and the worker never serves it. -/
theorem session_agreement_exactly
    (allowedPeerThumbprints : List String)
    (directAtOnce stunAtOnce : Option String)
    (events : List SessionEvent) (state : SessionState)
    (run :
      Run sessionStep ReadyWasQueuedFirst
        (SessionState.initial allowedPeerThumbprints directAtOnce
          stunAtOnce)
        events state) :
    state.Agreed ∧
      (∀ candidate,
        state.race.outcome = .racing →
          state.race.Ready candidate →
            state.queued.head? ≠ some (.client candidate) →
              ∃ next,
                sessionStep state (.race (.poll candidate.branch)) =
                    some next ∧
                  next.race.outcome = .connected candidate ∧
                  ∀ later final,
                    replay sessionStep next later = some final →
                      final.served ≠ some (.client candidate)) := by
  have kept : state.Kept := by
    apply run.preserves SessionState.Kept
      (fun _ _ _ before readyFirst stepped =>
        sessionStep_kept before readyFirst stepped)
    refine ⟨initial_consistent _ _ _, ?_⟩
    intro candidate connected
    cases connected
  refine ⟨?_, ?_⟩
  · intro candidate connected
    rw [kept.1.served_eq]
    exact kept.2 candidate connected
  · intro candidate racing ready notFirst
    obtain ⟨race, raced, connected⟩ := raceStep_poll_ready racing ready
    have stepped :
        sessionStep state (.race (.poll candidate.branch)) =
          some (state.afterRace race) := by
      simp only [sessionStep, SessionState.handshakeAllows, if_true, raced,
        Option.map_some]
    refine ⟨_, stepped, connected, ?_⟩
    intro later final ran
    have queued : Connector.client candidate ∈ state.queued :=
      kept.1.authorisedQueued _
        (kept.1.succeededAuthorised candidate ready.2)
    obtain ⟨first, isFirst⟩ : ∃ first, state.queued.head? = some first := by
      cases queue : state.queued with
      | nil =>
          rw [queue] at queued
          cases queued
      | cons first rest =>
          exact ⟨first, rfl⟩
    rw [first_queued_is_final
      (sessionStep_consistent kept.1 stepped).1 isFirst ran]
    rw [isFirst] at notFirst
    exact notFirst

/-- A third party connects first and fails the certificate check; the worker
takes its connection all the same, and the client's direct attempt succeeds. -/
def strangerFirst : List SessionEvent :=
  [.race (.poll .direct),
    .newConnection (.stranger 0) true,
    .newConnection (.client .direct) true,
    .certificate (.stranger 0) (some "bb"),
    .certificate (.client .direct) (some "AA"),
    .race (.directFinishes .ok),
    .workerReceives,
    .race (.poll .direct)]

theorem stranger_takes_session :
    ¬ ∀ (allowedPeerThumbprints : List String)
        (directAtOnce stunAtOnce : Option String)
        (events : List SessionEvent) (state : SessionState),
        replay sessionStep
            (SessionState.initial allowedPeerThumbprints directAtOnce
              stunAtOnce)
            events = some state →
          state.Agreed := by
  intro agreed
  have reached :
      (replay sessionStep (SessionState.initial ["aa"] none none)
        strangerFirst).map
          (fun state => (state.race.outcome, state.served)) =
        some (.connected .direct, some (.stranger 0)) := by
    decide
  obtain ⟨state, ran, observed⟩ := Option.map_eq_some_iff.mp reached
  obtain ⟨connected, served⟩ := Prod.mk.inj observed
  have serves := agreed ["aa"] none none strangerFirst state ran .direct
    connected
  rw [served] at serves
  exact absurd serves (by decide)

instance (state : SessionState) (event : SessionEvent) :
    Decidable (ReadyWasQueuedFirst state event) :=
  match event with
  | .race (.poll _) =>
      decidable_of_iff
        ((state.race.Ready .direct →
            state.queued.head? = some (.client .direct)) ∧
          (state.race.Ready .stun →
            state.queued.head? = some (.client .stun)))
        ⟨fun both candidate =>
          match candidate with
          | .direct => both.1
          | .stun => both.2,
        fun every => ⟨every .direct, every .stun⟩⟩
  | .race (.directFinishes _) => isTrue trivial
  | .race (.stunFinishes _) => isTrue trivial
  | .race .headStartElapses => isTrue trivial
  | .newConnection _ _ => isTrue trivial
  | .certificate _ _ => isTrue trivial
  | .workerReceives => isTrue trivial

/-- With the direct connection first in the queue, both sides use it. -/
theorem session_agreement_direct_first :
    ∃ state : SessionState,
      state.race.outcome = .connected .direct ∧ state.Agreed := by
  have reached :
      (guardedReplay sessionStep ReadyWasQueuedFirst
        (SessionState.initial ["aa"] none none)
        [.race (.poll .direct),
          .newConnection (.client .direct) true,
          .newConnection (.stranger 0) true,
          .certificate (.client .direct) (some "AA"),
          .race (.directFinishes .ok),
          .race (.poll .direct)]).map
        (fun state => state.race.outcome) = some (.connected .direct) := by
    decide
  obtain ⟨state, ran, outcome⟩ := Option.map_eq_some_iff.mp reached
  exact
    ⟨state, outcome,
      (session_agreement_exactly ["aa"] none none _ state
        (run_of_guardedReplay ran)).1⟩

end Quiczilla
