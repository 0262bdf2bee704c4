import Mathlib.Data.List.Basic

/-!
# The offer handshake

The exchange of offers and answers between a sending and a receiving side,
without files and bytes.  Offers are numbered in the order in which they are
announced; the messages themselves carry no number, and the sending side has
one slot for the offer that waits for its answer.

The steps are those in which an answer is taken only for the last offer.  Then
every offer has at most one message, slot or answer that speaks for it, and
these are in the order of the numbers.
-/

namespace Quiczilla

/-- What the sending side has told and the receiving side has not yet taken. -/
inductive Notice where
  | offer (number : Nat) (name : String) (size : Nat)
  | resumeOk
  | restart (number : Nat)
  deriving DecidableEq, Repr

/-- What the receiving side has answered and the sending side has not yet
taken. -/
inductive Answer where
  | ready (number : Nat)
  | resumeReady (number offset : Nat) (prefixHash : Option String)
  deriving DecidableEq, Repr

def Answer.number : Answer → Nat
  | .ready number => number
  | .resumeReady number _ _ => number

def Notice.offer? : Notice → Option Nat
  | .offer number _ _ => some number
  | _ => none

def Notice.restart? : Notice → Option Nat
  | .restart number => some number
  | _ => none

/-- `pending` says whether an offer waits for its answer, `offered` is the
offer that waits for its accept, and `waiting` is the resume that waits for a
reply. -/
structure Handshake where
  announced : Nat
  pending : Bool
  notices : List Notice
  offered : Option Nat
  waiting : Option (Nat × Nat)
  answers : List Answer

/-- The numbers of everything that speaks for an offer, in the order in which
the sending side will hear of it. -/
def Handshake.trail (handshake : Handshake) : List Nat :=
  handshake.answers.map Answer.number ++
    handshake.notices.filterMap Notice.restart? ++
      handshake.offered.toList ++
        handshake.notices.filterMap Notice.offer?

inductive HandshakeStep (handshake : Handshake) : Handshake → Prop
  | announced (name : String) (size : Nat) :
      HandshakeStep handshake
        { handshake with
          announced := handshake.announced + 1
          pending := true
          notices :=
            handshake.notices ++ [.offer handshake.announced name size] }
  | offered (number : Nat) (name : String) (size : Nat)
      (rest : List Notice) :
      handshake.notices = .offer number name size :: rest →
      HandshakeStep handshake
        { handshake with notices := rest, offered := some number }
  | offerAccepted (number : Nat) (name : String) (size : Nat)
      (rest : List Notice) :
      handshake.notices = .offer number name size :: rest →
      HandshakeStep handshake
        { handshake with
          notices := rest
          offered := none
          answers := handshake.answers ++ [.ready number] }
  | offerResumed (number : Nat) (name : String) (size offset : Nat)
      (prefixHash : Option String) (rest : List Notice) :
      handshake.notices = .offer number name size :: rest →
      HandshakeStep handshake
        { handshake with
          notices := rest
          offered := none
          waiting := some (number, offset)
          answers :=
            handshake.answers ++
              [.resumeReady number offset prefixHash] }
  | accepted (number : Nat) :
      handshake.offered = some number →
      HandshakeStep handshake
        { handshake with
          offered := none
          answers := handshake.answers ++ [.ready number] }
  | resumed (number offset : Nat) (prefixHash : Option String) :
      handshake.offered = some number →
      HandshakeStep handshake
        { handshake with
          offered := none
          waiting := some (number, offset)
          answers :=
            handshake.answers ++
              [.resumeReady number offset prefixHash] }
  | withdrawn :
      HandshakeStep handshake { handshake with offered := none }
  | started (answer : Answer) (rest : List Answer) :
      handshake.answers = answer :: rest →
      answer.number + 1 = handshake.announced →
      HandshakeStep handshake
        { handshake with answers := rest, pending := false }
  | confirmed (number offset : Nat) (prefixHash : Option String)
      (rest : List Answer) :
      handshake.answers = .resumeReady number offset prefixHash :: rest →
      number + 1 = handshake.announced →
      HandshakeStep handshake
        { handshake with
          answers := rest
          pending := false
          notices := handshake.notices ++ [.resumeOk] }
  | refuted (number offset : Nat) (prefixHash : Option String)
      (rest : List Answer) :
      handshake.answers = .resumeReady number offset prefixHash :: rest →
      number + 1 = handshake.announced →
      HandshakeStep handshake
        { handshake with
          answers := rest
          notices := handshake.notices ++ [.restart number] }
  | confirmationTaken (rest : List Notice) :
      handshake.notices = .resumeOk :: rest →
      HandshakeStep handshake
        { handshake with notices := rest, waiting := none }
  | restartTaken (told number offset : Nat) (rest : List Notice) :
      handshake.notices = .restart told :: rest →
      handshake.waiting = some (number, offset) →
      HandshakeStep handshake
        { handshake with
          notices := rest
          waiting := none
          answers := handshake.answers ++ [.ready number] }

/-- A reply is the first notice, and then nothing but later offers is on its
way; the last answer, if it offers a resume, is for the resume that waits. -/
structure Handshake.Sound (handshake : Handshake) : Prop where
  increasing : handshake.trail.Pairwise (· < ·)
  known : ∀ number ∈ handshake.trail, number < handshake.announced
  pending :
    handshake.pending = false →
      ∀ number ∈ handshake.trail, number + 1 < handshake.announced
  behind :
    ∀ notice ∈ handshake.notices.tail, notice.offer?.isSome = true
  replying :
    ∀ notice, handshake.notices.head? = some notice →
      notice.offer? = none →
        handshake.answers = [] ∧ handshake.offered = none ∧
          ∃ number offset,
            handshake.waiting = some (number, offset) ∧
              ∀ told, notice = .restart told → told = number
  resuming :
    ∀ number offset prefixHash,
      handshake.answers.getLast? =
          some (.resumeReady number offset prefixHash) →
        handshake.waiting = some (number, offset)

variable {handshake next : Handshake}

namespace Handshake.Sound

theorem initial :
    Handshake.Sound
      { announced := 0
        pending := false
        notices := []
        offered := none
        waiting := none
        answers := [] } where
  increasing := List.Pairwise.nil
  known := nofun
  pending := nofun
  behind := nofun
  replying := nofun
  resuming := nofun

/-- Without a reply every notice is an offer. -/
theorem noRestart
    (sound : handshake.Sound)
    (noReply :
      ∀ notice, handshake.notices.head? = some notice →
        notice.offer?.isSome = true) :
    handshake.notices.filterMap Notice.restart? = [] := by
  rw [List.filterMap_eq_nil_iff]
  intro notice member
  have isOffer : notice.offer?.isSome = true := by
    cases notices : handshake.notices with
    | nil =>
        rw [notices] at member
        cases member
    | cons first rest =>
        have behind := sound.behind
        rw [notices] at member noReply behind
        rcases List.mem_cons.mp member with rfl | later
        · exact noReply notice rfl
        · exact behind notice later
  cases notice with
  | offer number name size => rfl
  | resumeOk => cases isOffer
  | restart number => cases isOffer

theorem noReply_of_offered
    {number : Nat} (sound : handshake.Sound)
    (isOffered : handshake.offered = some number) :
    ∀ notice, handshake.notices.head? = some notice →
      notice.offer?.isSome = true := by
  intro notice isHead
  by_contra notOffer
  have noOffer : notice.offer? = none := by
    simpa using notOffer
  have nothing := (sound.replying notice isHead noOffer).2.1
  rw [isOffered] at nothing
  cases nothing

theorem noReply_of_answer
    {answer : Answer} {rest : List Answer} (sound : handshake.Sound)
    (isAnswered : handshake.answers = answer :: rest) :
    ∀ notice, handshake.notices.head? = some notice →
      notice.offer?.isSome = true := by
  intro notice isHead
  by_contra notOffer
  have noOffer : notice.offer? = none := by
    simpa using notOffer
  have nothing := (sound.replying notice isHead noOffer).1
  rw [isAnswered] at nothing
  cases nothing

/-- An answer for the last offer is all that is under way. -/
theorem alone
    {answer : Answer} {rest : List Answer} (sound : handshake.Sound)
    (isAnswered : handshake.answers = answer :: rest)
    (isLast : answer.number + 1 = handshake.announced) :
    rest = [] ∧ handshake.offered = none ∧ handshake.notices = [] := by
  have increasing := sound.increasing
  have known := sound.known
  rw [Handshake.trail, isAnswered, List.map_cons, List.cons_append,
    List.cons_append, List.cons_append] at increasing known
  have later :
      rest.map Answer.number ++
          handshake.notices.filterMap Notice.restart? ++
            handshake.offered.toList ++
              handshake.notices.filterMap Notice.offer? = [] := by
    rw [List.eq_nil_iff_forall_not_mem]
    intro number member
    have above := (List.pairwise_cons.mp increasing).1 number member
    have below := known number (List.mem_cons_of_mem _ member)
    omega
  obtain ⟨⟨⟨noneElse, _⟩, noneOffered⟩, noOffers⟩ := by
    simpa only [List.append_eq_nil_iff] using later
  refine
    ⟨List.map_eq_nil_iff.mp noneElse,
      Option.toList_eq_nil_iff.mp noneOffered, ?_⟩
  have noReply := sound.noReply_of_answer isAnswered
  cases notices : handshake.notices with
  | nil => rfl
  | cons first others =>
      rw [notices] at noReply noOffers
      have isOffer := noReply first rfl
      rw [List.filterMap_eq_nil_iff] at noOffers
      rw [noOffers first List.mem_cons_self] at isOffer
      cases isOffer

/-- An answer for the last offer finds the offer that waits for it. -/
theorem pending_of_answer
    {answer : Answer} {rest : List Answer} (sound : handshake.Sound)
    (isAnswered : handshake.answers = answer :: rest)
    (isLast : answer.number + 1 = handshake.announced) :
    handshake.pending = true := by
  by_contra notPending
  have member : answer.number ∈ handshake.trail := by
    rw [Handshake.trail, isAnswered]
    simp
  have before := sound.pending (by simpa using notPending) _ member
  omega

/-- Dropping or passing on what speaks for an offer keeps the order. -/
theorem of_sublist
    (sound : handshake.Sound)
    (fewer : next.trail.Sublist handshake.trail)
    (announced : next.announced = handshake.announced)
    (pending : next.pending = false → handshake.pending = false)
    (behind : ∀ notice ∈ next.notices.tail, notice.offer?.isSome = true)
    (replying :
      ∀ notice, next.notices.head? = some notice →
        notice.offer? = none →
          next.answers = [] ∧ next.offered = none ∧
            ∃ number offset,
              next.waiting = some (number, offset) ∧
                ∀ told, notice = .restart told → told = number)
    (resuming :
      ∀ number offset prefixHash,
        next.answers.getLast? =
            some (.resumeReady number offset prefixHash) →
          next.waiting = some (number, offset)) :
    next.Sound where
  increasing := sound.increasing.sublist fewer
  known := by
    intro number member
    rw [announced]
    exact sound.known number (fewer.subset member)
  pending := by
    intro notPending number member
    rw [announced]
    exact
      sound.pending (pending notPending) number (fewer.subset member)
  behind := behind
  replying := replying
  resuming := resuming

/-- What is left when nothing speaks for an offer any more. -/
theorem of_empty
    (empty : next.trail = [])
    (behind : ∀ notice ∈ next.notices.tail, notice.offer?.isSome = true)
    (replying :
      ∀ notice, next.notices.head? = some notice →
        notice.offer? = none →
          next.answers = [] ∧ next.offered = none ∧
            ∃ number offset,
              next.waiting = some (number, offset) ∧
                ∀ told, notice = .restart told → told = number)
    (resuming :
      ∀ number offset prefixHash,
        next.answers.getLast? =
            some (.resumeReady number offset prefixHash) →
          next.waiting = some (number, offset)) :
    next.Sound where
  increasing := by
    rw [empty]
    exact List.Pairwise.nil
  known := by
    rw [empty]
    nofun
  pending := by
    rw [empty]
    nofun
  behind := behind
  replying := replying
  resuming := resuming

/-- After the first notice come offers only. -/
theorem rest_offers
    {notice : Notice} {rest : List Notice} (sound : handshake.Sound)
    (notices : handshake.notices = notice :: rest) :
    (∀ other ∈ rest, other.offer?.isSome = true) ∧
      rest.filterMap Notice.restart? = [] := by
  have behind := sound.behind
  rw [notices, List.tail_cons] at behind
  refine ⟨behind, ?_⟩
  rw [List.filterMap_eq_nil_iff]
  intro other member
  have isOffer := behind other member
  cases other with
  | offer number name size => rfl
  | resumeOk => cases isOffer
  | restart number => cases isOffer

end Handshake.Sound

theorem offers_no_reply
    {notices : List Notice}
    (offers : ∀ notice ∈ notices, notice.offer?.isSome = true)
    {notice : Notice} (isHead : notices.head? = some notice)
    (noOffer : notice.offer? = none) {statement : Prop} :
    statement := by
  have isOffer := offers notice (List.mem_of_head? isHead)
  rw [noOffer] at isOffer
  cases isOffer

theorem handshakeStep_announced
    (sound : handshake.Sound) (name : String) (size : Nat) :
    Handshake.Sound
      { handshake with
        announced := handshake.announced + 1
        pending := true
        notices :=
          handshake.notices ++ [.offer handshake.announced name size] } := by
  have trail :
      Handshake.trail
          { handshake with
            announced := handshake.announced + 1
            pending := true
            notices :=
              handshake.notices ++ [.offer handshake.announced name size] } =
        handshake.trail ++ [handshake.announced] := by
    simp [Handshake.trail, Notice.restart?, Notice.offer?]
  constructor
  case increasing =>
    rw [trail, List.pairwise_append]
    refine ⟨sound.increasing, List.pairwise_singleton _ _, ?_⟩
    intro number member last isLast
    rw [List.mem_singleton.mp isLast]
    exact sound.known number member
  case known =>
    intro number member
    rw [trail] at member
    rcases List.mem_append.mp member with earlier | new
    · exact Nat.lt_succ_of_lt (sound.known number earlier)
    · rw [List.mem_singleton.mp new]
      exact Nat.lt_succ_self _
  case pending => nofun
  case behind =>
    intro notice member
    cases notices : handshake.notices with
    | nil =>
        simp [notices] at member
    | cons first rest =>
        have later := (sound.rest_offers notices).1
        simp only [notices, List.cons_append, List.tail_cons,
          List.mem_append, List.mem_singleton] at member
        rcases member with earlier | rfl
        · exact later notice earlier
        · rfl
  case replying =>
    intro notice isHead noOffer
    cases notices : handshake.notices with
    | nil =>
        simp only [notices, List.nil_append, List.head?_cons,
          Option.some.injEq] at isHead
        rw [← isHead] at noOffer
        cases noOffer
    | cons first rest =>
        apply sound.replying notice _ noOffer
        simpa [notices] using isHead
  case resuming => exact sound.resuming

/-- Accepting the offer that is held puts its answer last. -/
theorem trail_accepted
    {number : Nat} (sound : handshake.Sound)
    (isOffered : handshake.offered = some number)
    (answer : Answer) (isAnswer : answer.number = number) :
    (handshake.answers ++ [answer]).map Answer.number ++
        handshake.notices.filterMap Notice.restart? ++
          (none : Option Nat).toList ++
            handshake.notices.filterMap Notice.offer? =
      handshake.trail := by
  have noRestart :=
    sound.noRestart (sound.noReply_of_offered isOffered)
  simp [Handshake.trail, noRestart, isOffered, isAnswer]

theorem trail_offerAnswered
    {number size : Nat} {name : String} {rest : List Notice}
    (sound : handshake.Sound)
    (notices : handshake.notices = .offer number name size :: rest)
    (answer : Answer) (isAnswer : answer.number = number) :
    List.Sublist
      ((handshake.answers ++ [answer]).map Answer.number ++
        rest.filterMap Notice.restart? ++
          (none : Option Nat).toList ++
            rest.filterMap Notice.offer?)
      handshake.trail := by
  have noRestart := (sound.rest_offers notices).2
  simp only [Handshake.trail, notices, Notice.restart?, Notice.offer?,
    List.filterMap_cons, noRestart, List.map_append, List.map_cons,
    List.map_nil, isAnswer, Option.toList_none, List.append_nil,
    List.append_assoc, List.nil_append, List.cons_append]
  exact
    List.Sublist.append_left (List.sublist_append_right _ _) _

/-- The first notice is taken; what is behind it are offers. -/
theorem Handshake.Sound.taken
    {notice : Notice} {rest : List Notice} (sound : handshake.Sound)
    (notices : handshake.notices = notice :: rest)
    (isRest : next.notices = rest)
    (fewer : next.trail.Sublist handshake.trail)
    (announced : next.announced = handshake.announced)
    (pending : next.pending = handshake.pending)
    (resuming :
      ∀ number offset prefixHash,
        next.answers.getLast? =
            some (.resumeReady number offset prefixHash) →
          next.waiting = some (number, offset)) :
    next.Sound := by
  obtain ⟨offers, _⟩ := sound.rest_offers notices
  refine sound.of_sublist fewer announced (pending ▸ id) ?_ ?_ resuming
  · rw [isRest]
    exact fun _ member => offers _ (List.mem_of_mem_tail member)
  · rw [isRest]
    exact fun _ isHead noOffer => offers_no_reply offers isHead noOffer

theorem handshakeStep_offered
    {number size : Nat} {name : String} {rest : List Notice}
    (sound : handshake.Sound)
    (notices : handshake.notices = .offer number name size :: rest) :
    Handshake.Sound
      { handshake with notices := rest, offered := some number } := by
  have noRestart := (sound.rest_offers notices).2
  refine sound.taken notices rfl ?_ rfl rfl sound.resuming
  simp only [Handshake.trail, notices, Notice.restart?, Notice.offer?,
    List.filterMap_cons, noRestart, Option.toList_some,
    List.append_nil, List.append_assoc, List.cons_append,
    List.nil_append]
  exact List.Sublist.append_left (List.sublist_append_right _ _) _

/-- An offer is answered as soon as it is taken. -/
theorem handshakeStep_offerAnswered
    {number size : Nat} {name : String} {rest : List Notice}
    (sound : handshake.Sound)
    (notices : handshake.notices = .offer number name size :: rest)
    {answer : Answer} (isAnswer : answer.number = number)
    {waiting : Option (Nat × Nat)}
    (resuming :
      ∀ other offset prefixHash,
        answer = .resumeReady other offset prefixHash →
          waiting = some (other, offset)) :
    Handshake.Sound
      { handshake with
        notices := rest
        offered := none
        waiting := waiting
        answers := handshake.answers ++ [answer] } := by
  refine
    sound.taken notices rfl (trail_offerAnswered sound notices answer isAnswer)
      rfl rfl ?_
  intro other offset prefixHash isLast
  rw [List.getLast?_concat] at isLast
  exact resuming other offset prefixHash (Option.some.inj isLast)

/-- The offer that is held is answered. -/
theorem handshakeStep_answered
    {number : Nat} (sound : handshake.Sound)
    (isOffered : handshake.offered = some number) {answer : Answer}
    (isAnswer : answer.number = number) {waiting : Option (Nat × Nat)}
    (resuming :
      ∀ other offset prefixHash,
        answer = .resumeReady other offset prefixHash →
          waiting = some (other, offset)) :
    Handshake.Sound
      { handshake with
        offered := none
        waiting := waiting
        answers := handshake.answers ++ [answer] } := by
  have noReply := sound.noReply_of_offered isOffered
  refine sound.of_sublist ?_ rfl id sound.behind ?_ ?_
  · exact
      (trail_accepted sound isOffered answer isAnswer) ▸ List.Sublist.refl _
  · intro notice isHead noOffer
    have isOffer := noReply notice isHead
    rw [noOffer] at isOffer
    cases isOffer
  · intro other offset prefixHash isLast
    rw [List.getLast?_concat] at isLast
    exact resuming other offset prefixHash (Option.some.inj isLast)

theorem handshakeStep_withdrawn (sound : handshake.Sound) :
    Handshake.Sound { handshake with offered := none } := by
  refine sound.of_sublist ?_ rfl id sound.behind ?_ sound.resuming
  · simp only [Handshake.trail, Option.toList_none, List.append_nil,
      List.append_assoc]
    exact
      List.Sublist.append_left
        (List.Sublist.append_left (List.sublist_append_right _ _) _) _
  · intro notice isHead noOffer
    obtain ⟨answers, _, waits⟩ := sound.replying notice isHead noOffer
    exact ⟨answers, rfl, waits⟩

theorem handshakeStep_started
    {answer : Answer} {rest : List Answer} (sound : handshake.Sound)
    (isAnswered : handshake.answers = answer :: rest)
    (isLast : answer.number + 1 = handshake.announced) :
    Handshake.Sound { handshake with answers := rest, pending := false } := by
  obtain ⟨rfl, offered, notices⟩ := sound.alone isAnswered isLast
  refine Handshake.Sound.of_empty ?_ ?_ ?_ nofun
  · simp [Handshake.trail, offered, notices]
  · rw [notices]
    nofun
  · rw [notices]
    nofun

section Resuming

variable {number offset : Nat} {prefixHash : Option String}
  {rest : List Answer} (sound : handshake.Sound)
  (isAnswered :
    handshake.answers = .resumeReady number offset prefixHash :: rest)
  (isLast : number + 1 = handshake.announced)

include sound isAnswered isLast

theorem handshakeStep_confirmed :
    Handshake.Sound
      { handshake with
        answers := rest
        pending := false
        notices := handshake.notices ++ [.resumeOk] } := by
  obtain ⟨rfl, offered, notices⟩ := sound.alone isAnswered isLast
  have waits :=
    sound.resuming number offset prefixHash (by rw [isAnswered]; rfl)
  refine Handshake.Sound.of_empty ?_ ?_ ?_ nofun
  · simp [Handshake.trail, offered, notices, Notice.restart?,
      Notice.offer?]
  · rw [notices]
    nofun
  · intro notice isHead _
    rw [notices] at isHead
    refine ⟨rfl, offered, number, offset, waits, ?_⟩
    rintro told rfl
    cases isHead

theorem handshakeStep_refuted :
    Handshake.Sound
      { handshake with
        answers := rest
        notices := handshake.notices ++ [.restart number] } := by
  obtain ⟨rfl, offered, notices⟩ := sound.alone isAnswered isLast
  have waits :=
    sound.resuming number offset prefixHash (by rw [isAnswered]; rfl)
  refine sound.of_sublist ?_ rfl id ?_ ?_ nofun
  · simp [Handshake.trail, offered, notices, isAnswered,
      Notice.restart?, Notice.offer?, Answer.number]
  · rw [notices]
    nofun
  · intro notice isHead _
    rw [notices] at isHead
    refine ⟨rfl, offered, number, offset, waits, ?_⟩
    rintro told rfl
    cases isHead
    rfl

end Resuming

theorem handshakeStep_confirmationTaken
    {rest : List Notice} (sound : handshake.Sound)
    (notices : handshake.notices = .resumeOk :: rest) :
    Handshake.Sound { handshake with notices := rest, waiting := none } := by
  obtain ⟨answers, _, _⟩ :=
    sound.replying .resumeOk (by rw [notices]; rfl) rfl
  refine sound.taken notices rfl ?_ rfl rfl ?_
  · simp [Handshake.trail, notices, List.filterMap_cons,
      Notice.restart?, Notice.offer?]
  · rw [answers]
    nofun

theorem handshakeStep_restartTaken
    {told number offset : Nat} {rest : List Notice} (sound : handshake.Sound)
    (notices : handshake.notices = .restart told :: rest)
    (waits : handshake.waiting = some (number, offset)) :
    Handshake.Sound
      { handshake with
        notices := rest
        waiting := none
        answers := handshake.answers ++ [.ready number] } := by
  have noRestart := (sound.rest_offers notices).2
  obtain ⟨answers, offered, other, otherOffset, isOther, same⟩ :=
    sound.replying (.restart told) (by rw [notices]; rfl) rfl
  have isTold : told = number := by
    rw [waits] at isOther
    rw [same told rfl]
    exact (Prod.mk.inj (Option.some.inj isOther)).1.symm
  refine sound.taken notices rfl ?_ rfl rfl ?_
  · simp [Handshake.trail, notices, List.filterMap_cons,
      Notice.restart?, Notice.offer?, Answer.number, answers, offered,
      noRestart, isTold]
  · rw [answers]
    intro other offset prefixHash isLast
    simp at isLast

/-- The last answer offers to keep what waits. -/
theorem resumeReady_waits
    {number offset : Nat} {prefixHash : Option String} :
    ∀ other otherOffset otherHash,
      Answer.resumeReady number offset prefixHash =
          .resumeReady other otherOffset otherHash →
        some (number, offset) = some (other, otherOffset) := by
  intro other otherOffset otherHash same
  cases same
  rfl

theorem handshakeStep_sound
    (sound : handshake.Sound) (step : HandshakeStep handshake next) :
    next.Sound := by
  cases step with
  | announced name size => exact handshakeStep_announced sound name size
  | offered number name size rest notices =>
      exact handshakeStep_offered sound notices
  | offerAccepted number name size rest notices =>
      exact handshakeStep_offerAnswered sound notices rfl nofun
  | offerResumed number name size offset prefixHash rest notices =>
      exact handshakeStep_offerAnswered sound notices rfl resumeReady_waits
  | accepted number isOffered =>
      exact handshakeStep_answered sound isOffered rfl nofun
  | resumed number offset prefixHash isOffered =>
      exact handshakeStep_answered sound isOffered rfl resumeReady_waits
  | withdrawn => exact handshakeStep_withdrawn sound
  | started answer rest isAnswered isLast =>
      exact handshakeStep_started sound isAnswered isLast
  | confirmed number offset prefixHash rest isAnswered isLast =>
      exact handshakeStep_confirmed sound isAnswered isLast
  | refuted number offset prefixHash rest isAnswered isLast =>
      exact handshakeStep_refuted sound isAnswered isLast
  | confirmationTaken rest notices =>
      exact handshakeStep_confirmationTaken sound notices
  | restartTaken told number offset rest notices waits =>
      exact handshakeStep_restartTaken sound notices waits

end Quiczilla
