import Quiczilla.SendWindow

/-!
# What a finished flush means

`poll_flush` and `poll_shutdown` look at the counter of bytes in flight, which
a cancelled send lowers like a delivered one, and not at the recorded error.
So their `Ok` means that the peer has the data only while no send was cancelled
and the peer did not abort its receiving.
-/

namespace Quiczilla

open Foundation

namespace SendAccount

/-- `poll_flush` or `poll_shutdown` returns `Ready(Ok)`. -/
def FinishesFlush (shared : StreamShared) : WindowLabel → Prop
  | .turn (.pollFlush task) =>
      ∃ next, shared.pollFlush task = .ready (.ok ()) next
  | .turn (.pollShutdown task streamShutdown) =>
      ∃ next, shared.pollShutdown task streamShutdown = .ready (.ok ()) next
  | _ => False

/-- Every accepted box was completed and not cancelled, and no abort of the
send direction was recorded. -/
def AllDelivered (account : SendAccount) : Prop :=
  (∀ box ∈ account.accepted, box ∈ account.delivered) ∧
    account.aborted = false

def FlushMeansDelivered (account : SendAccount) (label : WindowLabel) :
    Prop :=
  FinishesFlush account.shared label → account.AllDelivered

/-- No send was cancelled and no abort came before a flush or a shutdown that
finds nothing in flight, unless the shutdown cannot reach the library. -/
def AdmitsFlush (account : SendAccount) : WindowLabel → Prop
  | .turn (.pollFlush _) =>
      account.shared.inFlightBytes = 0 →
        account.cancelled = [] ∧ account.aborted = false
  | .turn (.pollShutdown _ streamShutdown) =>
      account.shared.inFlightBytes = 0 →
        account.shared.isClosedWrite = true ∨
            (∀ reason, streamShutdown ≠ .unavailable reason) →
          account.cancelled = [] ∧ account.aborted = false
  | _ => True

/-- The accepted boxes are numbered in the order of their allocation. -/
structure Numbered (account : SendAccount) : Prop where
  nodup : account.accepted.Nodup
  bounded : ∀ box ∈ account.accepted, box < account.allocated

variable {account : SendAccount}

theorem start_numbered : start.Numbered where
  nodup := List.nodup_nil
  bounded := by
    intro box member
    cases member

/-- A write accepts no box or the one that it allocates. -/
theorem written_accepted
    (account : SendAccount) (task : Waker) (buffer : List UInt8)
    (streamSend : StreamShared.Library) :
    ((account.written task buffer streamSend).accepted =
          account.accepted ∧
        account.allocated ≤
          (account.written task buffer streamSend).allocated) ∨
      ((account.written task buffer streamSend).accepted =
          account.accepted ++ [account.allocated] ∧
        (account.written task buffer streamSend).allocated =
          account.allocated + 1) := by
  unfold written
  by_cases reaches : account.shared.reachesSend buffer = true
  · rw [if_pos reaches]
    cases streamSend with
    | succeeded => exact Or.inr ⟨rfl, rfl⟩
    | failed status => exact Or.inl ⟨rfl, Nat.le_succ _⟩
    | unavailable reason => exact Or.inl ⟨rfl, Nat.le_refl _⟩
    | functionMissing => exact Or.inl ⟨rfl, Nat.le_refl _⟩
  · rw [if_neg reaches]
    exact Or.inl ⟨rfl, Nat.le_refl _⟩

theorem Numbered.same
    (numbered : account.Numbered) {next : SendAccount}
    (sameAccepted : next.accepted = account.accepted)
    (grows : account.allocated ≤ next.allocated) :
    next.Numbered where
  nodup := by
    rw [sameAccepted]
    exact numbered.nodup
  bounded := by
    intro box member
    rw [sameAccepted] at member
    exact Nat.lt_of_lt_of_le (numbered.bounded box member) grows

theorem Numbered.accept
    (numbered : account.Numbered) {next : SendAccount}
    (accepts : next.accepted = account.accepted ++ [account.allocated])
    (grows : next.allocated = account.allocated + 1) :
    next.Numbered where
  nodup := by
    rw [accepts, List.nodup_append]
    refine ⟨numbered.nodup, List.pairwise_singleton _ _, ?_⟩
    intro box member last isLast same
    have below := numbered.bounded box member
    rw [same, List.mem_singleton.mp isLast] at below
    exact Nat.lt_irrefl _ below
  bounded := by
    intro box member
    rw [accepts] at member
    rw [grows]
    rcases List.mem_append.mp member with member | isLast
    · exact Nat.lt_succ_of_lt (numbered.bounded box member)
    · rw [List.mem_singleton.mp isLast]
      exact Nat.lt_succ_self _

theorem step_numbered
    {next : SendAccount} {label : WindowLabel}
    (numbered : account.Numbered)
    (stepped : account.step label = some next) :
    next.Numbered := by
  cases label with
  | completes position canceled =>
      obtain ⟨entry, _, rfl⟩ := Option.map_eq_some_iff.mp stepped
      exact numbered.same rfl (Nat.le_refl _)
  | turn label =>
      cases label with
      | event happened =>
          cases happened with
          | sendComplete clientContext canceled =>
              cases clientContext with
              | none =>
                  cases stepped
                  exact numbered.same rfl (Nat.le_refl _)
              | some sent => cases stepped
          | _ =>
              cases stepped
              exact numbered.same rfl (Nat.le_refl _)
      | pollWrite task buffer streamSend =>
          cases stepped
          rcases account.written_accepted task buffer streamSend
            with ⟨same, grows⟩ | ⟨accepts, grows⟩
          · exact numbered.same same grows
          · exact numbered.accept accepts grows
      | _ =>
          cases stepped
          exact numbered.same rfl (Nat.le_refl _)

/-- With nothing in flight, everything accepted was delivered exactly when
nothing was cancelled. -/
theorem delivered_iff
    (balanced : account.Balanced) (numbered : account.Numbered)
    (none : account.shared.inFlightBytes = 0) :
    (∀ box ∈ account.accepted, box ∈ account.delivered) ↔
      account.cancelled = [] := by
  have answered := balanced.answered
  rw [held, balanced.outstanding_eq_nil none, List.map_nil,
    List.append_nil] at answered
  constructor
  · intro allDelivered
    have nodup := answered.nodup_iff.mpr numbered.nodup
    obtain ⟨_, _, disjoint⟩ := List.nodup_append.mp nodup
    by_contra some
    obtain ⟨box, cancelled⟩ := List.exists_mem_of_ne_nil _ some
    have accepted : box ∈ account.accepted :=
      answered.mem_iff.mp (List.mem_append_right _ cancelled)
    exact disjoint box (allDelivered box accepted) box cancelled rfl
  · intro noneCancelled box accepted
    rw [noneCancelled, List.append_nil] at answered
    exact answered.mem_iff.mpr accepted

theorem finishesFlush_iff
    (shared : StreamShared) (task : Waker) :
    FinishesFlush shared (.turn (.pollFlush task)) ↔
      shared.inFlightBytes = 0 := by
  unfold FinishesFlush StreamShared.pollFlush
  by_cases flying : 0 < shared.inFlightBytes
  · have notZero : shared.inFlightBytes ≠ 0 := by
      omega
    simp [flying, notZero]
  · have isZero : shared.inFlightBytes = 0 := by
      omega
    simp [isZero]

theorem finishesShutdown_iff
    (shared : StreamShared) (task : Waker)
    (streamShutdown : StreamShared.Library) :
    FinishesFlush shared (.turn (.pollShutdown task streamShutdown)) ↔
      shared.inFlightBytes = 0 ∧
        (shared.isClosedWrite = true ∨
          ∀ reason, streamShutdown ≠ .unavailable reason) := by
  unfold FinishesFlush StreamShared.pollShutdown
  by_cases flying : 0 < shared.inFlightBytes
  · have notZero : shared.inFlightBytes ≠ 0 := by
      omega
    simp [flying, notZero]
  · have isZero : shared.inFlightBytes = 0 := by
      omega
    by_cases closed : shared.isClosedWrite = true
    · simp [isZero, closed]
    · cases streamShutdown <;> simp [isZero, closed]

/-- A flush means what it says exactly when it is admitted. -/
theorem flushMeansDelivered_iff
    (balanced : account.Balanced) (numbered : account.Numbered)
    (label : WindowLabel) :
    account.FlushMeansDelivered label ↔ account.AdmitsFlush label := by
  have allDelivered (none : account.shared.inFlightBytes = 0) :
      account.AllDelivered ↔
        account.cancelled = [] ∧ account.aborted = false :=
    and_congr_left' (delivered_iff balanced numbered none)
  unfold FlushMeansDelivered
  cases label with
  | completes position canceled => simp [FinishesFlush, AdmitsFlush]
  | turn label =>
      cases label with
      | pollFlush task =>
          rw [finishesFlush_iff, AdmitsFlush]
          exact forall_congr' allDelivered
      | pollShutdown task streamShutdown =>
          rw [finishesShutdown_iff, AdmitsFlush, and_imp]
          apply forall_congr'
          intro none
          rw [allDelivered none]
      | _ => simp [FinishesFlush, AdmitsFlush]

end SendAccount

open SendAccount in
/-- In a run with buffers shorter than four gibibytes, every finished flush and
shutdown means that all is delivered exactly when each is admitted. -/
theorem flush_means_delivered_exactly
    {labels : List WindowLabel} {account : SendAccount}
    (run : Run step ShortBuffers start labels account) :
    Throughout step start labels FlushMeansDelivered ↔
      Throughout step start labels AdmitsFlush := by
  refine
    run.throughout_congr
      (fun account => account.Balanced ∧ account.Numbered) ?_ ?_
      ⟨start_balanced, start_numbered⟩
  · intro source label target ⟨balanced, numbered⟩ short stepped
    exact
      ⟨step_balanced balanced short stepped,
        step_numbered numbered stepped⟩
  · intro account label ⟨balanced, numbered⟩ _
    exact flushMeansDelivered_iff balanced numbered label

open SendAccount in
theorem flush_means_delivered_acknowledged :
    Throughout step start
      [.turn (.pollWrite 1 [7] .succeeded), .completes 0 false,
        .turn (.pollFlush 1)]
      FlushMeansDelivered := by
  have run :=
    run_of_guardedReplay
      (show
        guardedReplay step ShortBuffers start
            [.turn (.pollWrite 1 [7] .succeeded), .completes 0 false,
              .turn (.pollFlush 1)] =
          some _
        from rfl)
  apply (flush_means_delivered_exactly run).mpr
  refine throughout_cons (show AdmitsFlush _ _ from trivial) ?_
  intro afterWrite written
  cases written
  refine throughout_cons (show AdmitsFlush _ _ from trivial) ?_
  intro afterCompletion completed
  cases completed
  refine throughout_cons (fun _ => ⟨rfl, rfl⟩) ?_
  intro afterFlush _
  exact throughout_nil afterFlush _

open SendAccount in
/-- The only byte was cancelled, and the flush reports success. -/
theorem cancelled_send_flushed :
    ∃ account,
      replay step start
          [.turn (.pollWrite 1 [7] .succeeded), .completes 0 true] =
        some account ∧
        FinishesFlush account.shared (.turn (.pollFlush 1)) ∧
          account.accepted = [0] ∧ account.delivered = [] ∧
            ¬account.FlushMeansDelivered (.turn (.pollFlush 1)) := by
  refine ⟨_, rfl, ⟨_, rfl⟩, rfl, rfl, ?_⟩
  intro meansDelivered
  have delivered := (meansDelivered ⟨_, rfl⟩).1 0 (by decide)
  cases delivered

end Quiczilla
