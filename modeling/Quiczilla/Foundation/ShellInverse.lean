import Mathlib.Tactic.Ring
import Quiczilla.Foundation.Shell

/-!
# What a shell drops

Token recognition passes on at most the characters that it reads: quotes,
backslashes that quote and blanks between words are dropped.  A text of which
nothing was dropped has nothing special in it, and one that stands in double
quotes, of which only these were dropped, has nothing in it that is special
between double quotes.
-/

namespace Quiczilla.Foundation

def ShellToken.size : ShellToken → Nat
  | .word characters => characters.length
  | .operator characters => characters.length

def tokensSize (tokens : List ShellToken) : Nat :=
  (tokens.map ShellToken.size).sum

theorem tokensSize_append (first second : List ShellToken) :
    tokensSize (first ++ second) =
      tokensSize first + tokensSize second := by
  rw [tokensSize, List.map_append, List.sum_append]
  rfl

namespace Scan

variable {scan : Scan} {character : Char} {text : List Char}

/-- The tokens, with the one being read. -/
def all (scan : Scan) : List ShellToken :=
  scan.tokens ++ scan.token.toList

/-- The characters that have arrived in tokens; a backslash between double
quotes counts until it is dropped. -/
def arrived (scan : Scan) : Nat :=
  tokensSize scan.all +
    if scan.quoting = .doubleEscaped then 1 else 0

@[simp]
theorem delimit_all (scan : Scan) : scan.delimit.all = scan.all := by
  simp [delimit, all]

@[simp]
theorem delimit_tokens (scan : Scan) :
    scan.delimit.tokens = scan.all := rfl

@[simp]
theorem withQuoting_all (scan : Scan) (quoting : Quoting) :
    (scan.withQuoting quoting).all = scan.all := rfl

@[simp]
theorem withQuoting_quoting (scan : Scan) (quoting : Quoting) :
    (scan.withQuoting quoting).quoting = quoting := rfl

@[simp]
theorem add_quoting (scan : Scan) (characters : ShellWord) :
    (scan.add characters).quoting = scan.quoting := by
  unfold add
  split <;> rfl

@[simp]
theorem operate_quoting (scan : Scan) (character : Char) :
    (scan.operate character).quoting = scan.quoting := by
  unfold operate
  split
  · split <;> rfl
  · rfl

theorem size_add (scan : Scan) (characters : ShellWord) :
    tokensSize (scan.add characters).all =
      tokensSize scan.all + characters.length := by
  unfold add
  split
  · rename_i word isWord
    simp only [all, isWord, Option.toList_some, tokensSize_append]
    simp [tokensSize, ShellToken.size]
    omega
  · have fresh :
        { scan.delimit with token := some (.word characters) }.all =
          scan.all ++ [.word characters] := rfl
    rw [fresh, tokensSize_append]
    simp [tokensSize, ShellToken.size]

theorem size_operate (scan : Scan) (character : Char) :
    tokensSize (scan.operate character).all =
      tokensSize scan.all + 1 := by
  unfold operate
  split
  · rename_i operator isOperator
    split
    · simp only [all, isOperator, Option.toList_some, tokensSize_append]
      simp [tokensSize, ShellToken.size]
      omega
    · have fresh :
          { scan.delimit with token := some (.operator [character]) }.all =
            scan.all ++ [.operator [character]] := rfl
      rw [fresh, tokensSize_append]
      simp [tokensSize, ShellToken.size]
  · have fresh (beyond : Bool) :
        { scan.delimit with
          token := some (.operator [character])
          beyond := beyond }.all =
          scan.all ++ [.operator [character]] := rfl
    rw [fresh, tokensSize_append]
    simp [tokensSize, ShellToken.size]

theorem size_le_arrived (scan : Scan) :
    tokensSize scan.all ≤ scan.arrived :=
  Nat.le_add_right _ _

theorem arrived_of_quoting
    {quoting : Quoting} (isQuoting : scan.quoting = quoting)
    (other : quoting ≠ .doubleEscaped) :
    scan.arrived = tokensSize scan.all := by
  rw [← isQuoting] at other
  rw [arrived, if_neg other, Nat.add_zero]

/-! ## One step -/

/-- What a character does outside of quotes. -/
inductive UnquotedStep (scan : Scan) (character : Char) (next : Scan) :
    Prop
  | kept :
      isOrdinary character = true →
      (character = '#' → ∃ word, scan.token = some (.word word)) →
      next = scan.add [⟨character, false⟩] →
      UnquotedStep scan character next
  | beyond : next.beyond = true → next.quoting = .unquoted →
      next.all = scan.all →
      UnquotedStep scan character next
  | operated :
      next = scan.operate character →
      UnquotedStep scan character next
  | dropped (quoting : Quoting) :
      quoting ≠ .doubleEscaped →
      next.quoting = quoting →
      tokensSize next.all = tokensSize scan.all →
      UnquotedStep scan character next

theorem readUnquoted_step (unquoted : scan.quoting = .unquoted) :
    UnquotedStep scan character (scan.readUnquoted character) := by
  unfold readUnquoted
  split
  · refine UnquotedStep.dropped .single (by decide) rfl ?_
    rw [withQuoting_all, size_add]
    rfl
  · rename_i notSingle
    split
    · refine UnquotedStep.dropped .double (by decide) rfl ?_
      rw [withQuoting_all, size_add]
      rfl
    · rename_i notDouble
      split
      · exact UnquotedStep.dropped .escaped (by decide) rfl rfl
      · rename_i notBackslash
        split
        · exact UnquotedStep.beyond rfl unquoted rfl
        · rename_i noExpansion
          split
          · refine UnquotedStep.dropped .unquoted (by decide) unquoted ?_
            rw [delimit_all]
          · rename_i notBlank
            split
            · exact UnquotedStep.operated rfl
            · rename_i noOperator
              have ordinary : isOrdinary character = true := by
                simp only [isBlank, Bool.or_eq_true, beq_iff_eq,
                  not_or] at notBlank noExpansion
                simp [isOrdinary, notSingle, notDouble, notBackslash,
                  noExpansion, notBlank]
                simpa using noOperator
              split
              · rename_i word isWord
                exact
                  UnquotedStep.kept ordinary (fun _ => ⟨word, isWord⟩) rfl
              · split
                · refine UnquotedStep.dropped .comment (by decide) rfl ?_
                  rw [withQuoting_all, delimit_all]
                · rename_i notHash
                  exact
                    UnquotedStep.kept ordinary
                      (fun isHash => absurd isHash notHash) rfl

theorem UnquotedStep.arrived_le
    {next : Scan} (unquoted : scan.quoting = .unquoted)
    (step : UnquotedStep scan character next) :
    next.arrived ≤ scan.arrived + 1 := by
  have start : scan.arrived = tokensSize scan.all :=
    arrived_of_quoting unquoted (by decide)
  rw [start]
  cases step with
  | kept _ _ isNext =>
      rw [isNext,
        arrived_of_quoting ((add_quoting _ _).trans unquoted)
          (by decide),
        size_add]
      exact Nat.le_refl _
  | beyond _ stays same =>
      rw [arrived_of_quoting stays (by decide), same]
      exact Nat.le_succ _
  | operated isNext =>
      rw [isNext,
        arrived_of_quoting ((operate_quoting _ _).trans unquoted) (by decide),
        size_operate]
  | dropped quoting other isQuoting same =>
      rw [arrived_of_quoting isQuoting other, same]
      exact Nat.le_succ _

/-- What a character does between double quotes. -/
inductive DoubleStep (scan : Scan) (character : Char) (next : Scan) :
    Prop
  | closed : character = '"' → next.quoting = .unquoted →
      next.arrived = scan.arrived →
      DoubleStep scan character next
  | escape : character = '\\' → next.quoting = .doubleEscaped →
      next.arrived = scan.arrived + 1 →
      DoubleStep scan character next
  | beyond : character = '$' ∨ character = '\x60' → next.beyond = true →
      next.quoting = .double → next.arrived = scan.arrived →
      DoubleStep scan character next
  | kept : character ≠ '"' → character ≠ '\\' → character ≠ '$' →
      character ≠ '\x60' → next.quoting = .double →
      next.arrived = scan.arrived + 1 →
      DoubleStep scan character next

theorem readDouble_step (double : scan.quoting = .double) :
    DoubleStep scan character (scan.readDouble character) := by
  have start : scan.arrived = tokensSize scan.all :=
    arrived_of_quoting double (by decide)
  unfold readDouble
  split
  · rename_i isQuote
    refine DoubleStep.closed isQuote rfl ?_
    rw [start]
    rfl
  · rename_i notQuote
    split
    · rename_i isBackslash
      refine DoubleStep.escape isBackslash rfl ?_
      rw [start]
      rfl
    · rename_i notBackslash
      split
      · rename_i expansion
        refine DoubleStep.beyond expansion rfl double ?_
        rfl
      · rename_i noExpansion
        obtain ⟨notDollar, notBackquote⟩ := not_or.mp noExpansion
        refine
          DoubleStep.kept notQuote notBackslash notDollar notBackquote
            (by rw [add_quoting, double]) ?_
        rw [start,
          arrived_of_quoting ((add_quoting _ _).trans double) (by decide),
          size_add]
        rfl

/-- What a character does after a backslash between double quotes. -/
inductive DoubleEscapedStep (scan : Scan) (character : Char)
    (next : Scan) : Prop
  | dropped : next.quoting = .double → next.arrived ≤ scan.arrived →
      ['$', '\x60', '"', '\\', '\n'].contains character = true →
      DoubleEscapedStep scan character next
  | kept : next.quoting = .double → next.arrived = scan.arrived + 1 →
      ['$', '\x60', '"', '\\', '\n'].contains character = false →
      DoubleEscapedStep scan character next

theorem readDoubleEscaped_step
    (escaped : scan.quoting = .doubleEscaped) :
    DoubleEscapedStep scan character
      (scan.readDoubleEscaped character) := by
  have start : scan.arrived = tokensSize scan.all + 1 := by
    rw [arrived, if_pos escaped]
  unfold readDoubleEscaped
  split
  · rename_i isNewline
    refine DoubleEscapedStep.dropped rfl ?_ (by rw [isNewline]; rfl)
    rw [start]
    exact Nat.le_succ _
  · rename_i notNewline
    split
    · rename_i special
      refine DoubleEscapedStep.dropped rfl ?_ ?_
      · rw [start,
        arrived_of_quoting (withQuoting_quoting _ _)
          (by decide), withQuoting_all,
          size_add]
        exact Nat.le_refl _
      · simp only [List.contains_eq_mem, decide_eq_true_eq, List.mem_cons,
          List.not_mem_nil, or_false] at special ⊢
        tauto
    · rename_i plain
      refine DoubleEscapedStep.kept rfl ?_ ?_
      · rw [start,
        arrived_of_quoting (withQuoting_quoting _ _)
          (by decide), withQuoting_all,
          size_add]
        rfl
      · simp only [List.contains_eq_mem, decide_eq_true_eq, List.mem_cons,
          List.not_mem_nil, or_false, decide_eq_false_iff_not] at plain ⊢
        tauto

/-- A step adds at most the character that it reads. -/
theorem arrived_step (scan : Scan) (character : Char) :
    (scan.step character).arrived ≤ scan.arrived + 1 := by
  cases quoting : scan.quoting with
  | unquoted =>
      simp only [step, quoting]
      exact (readUnquoted_step quoting).arrived_le quoting
  | escaped =>
      have start : scan.arrived = tokensSize scan.all :=
        arrived_of_quoting quoting (by decide)
      simp only [step, quoting]
      split
      · rw [start, arrived_of_quoting (withQuoting_quoting _ _) (by decide)]
        exact Nat.le_succ _
      · rw [start,
        arrived_of_quoting (withQuoting_quoting _ _)
          (by decide), withQuoting_all,
          size_add]
        exact Nat.le_refl _
  | single =>
      have start : scan.arrived = tokensSize scan.all :=
        arrived_of_quoting quoting (by decide)
      simp only [step, quoting]
      split
      · rw [start, arrived_of_quoting (withQuoting_quoting _ _) (by decide)]
        exact Nat.le_succ _
      · rw [start,
          arrived_of_quoting ((add_quoting _ _).trans quoting) (by decide),
          size_add]
        exact Nat.le_refl _
  | double =>
      simp only [step, quoting]
      cases @readDouble_step scan character quoting with
      | closed _ _ same => omega
      | escape _ _ more => omega
      | beyond _ _ _ same => omega
      | kept _ _ _ _ _ more => omega
  | doubleEscaped =>
      simp only [step, quoting]
      cases @readDoubleEscaped_step scan character quoting with
      | dropped _ fewer _ => omega
      | kept _ more _ => omega
  | comment =>
      have start : scan.arrived = tokensSize scan.all :=
        arrived_of_quoting quoting (by decide)
      simp only [step, quoting]
      split
      · rw [start,
          arrived_of_quoting
            ((operate_quoting _ _).trans (withQuoting_quoting _ _))
            (by decide),
          size_operate, withQuoting_all]
      · omega

theorem arrived_run (scan : Scan) (text : List Char) :
    (scan.run text).arrived ≤ scan.arrived + text.length := by
  induction text generalizing scan with
  | nil => exact Nat.le_refl _
  | cons character rest inductionHypothesis =>
      have first := arrived_step scan character
      have later := inductionHypothesis (scan.step character)
      rw [run_cons, List.length_cons]
      omega

/-! ## What stays -/

theorem add_beyond (scan : Scan) (characters : ShellWord) :
    (scan.add characters).beyond = scan.beyond := by
  unfold add
  split <;> rfl

theorem operate_beyond
    (beyond : scan.beyond = true) (character : Char) :
    (scan.operate character).beyond = true := by
  unfold operate
  split
  · split <;> exact beyond
  · simp [beyond]

theorem beyond_step
    (beyond : scan.beyond = true) (character : Char) :
    (scan.step character).beyond = true := by
  unfold step
  split
  · unfold readUnquoted
    split_ifs <;>
      first
        | exact beyond
        | exact (add_beyond _ _).trans beyond
        | exact operate_beyond beyond character
        | rfl
        | skip
    · split
      · exact (add_beyond _ _).trans beyond
      · exact beyond
    · split <;> exact (add_beyond _ _).trans beyond
  · split
    · exact beyond
    · exact (add_beyond _ _).trans beyond
  · split
    · exact beyond
    · exact (add_beyond _ _).trans beyond
  · unfold readDouble
    split_ifs <;>
      first
        | exact beyond
        | exact (add_beyond _ _).trans beyond
        | rfl
  · unfold readDoubleEscaped
    split_ifs <;>
      first
        | exact beyond
        | exact (add_beyond _ _).trans beyond
  · split
    · have still : (scan.withQuoting .unquoted).beyond = true := beyond
      exact operate_beyond still character
    · exact beyond

theorem beyond_run
    (beyond : scan.beyond = true) (text : List Char) :
    (scan.run text).beyond = true := by
  induction text generalizing scan with
  | nil => exact beyond
  | cons character rest inductionHypothesis =>
      exact inductionHypothesis (beyond_step beyond character)

/-- The token with the given number has been recognized as an operator. -/
def HasOperator (number : Nat) (scan : Scan) : Prop :=
  (∃ operator, scan.tokens[number]? = some (.operator operator)) ∨
    (scan.tokens.length = number ∧
      ∃ operator, scan.token = some (.operator operator))

theorem HasOperator.delimit
    {number : Nat} (has : HasOperator number scan) :
    ∃ operator, scan.delimit.tokens[number]? =
      some (.operator operator) := by
  rw [delimit_tokens, all]
  rcases has with ⟨operator, isOperator⟩ | ⟨rfl, operator, isOperator⟩
  · have inside : number < scan.tokens.length :=
      (List.getElem?_eq_some_iff.mp isOperator).1
    exact
      ⟨operator, (List.getElem?_append_left inside).trans isOperator⟩
  · refine ⟨operator, ?_⟩
    rw [isOperator, List.getElem?_append_right (Nat.le_refl _),
      Nat.sub_self]
    rfl

theorem HasOperator.add
    {number : Nat} (has : HasOperator number scan)
    (characters : ShellWord) :
    HasOperator number (scan.add characters) := by
  unfold Scan.add
  split
  · rename_i word isWord
    rcases has with finished | ⟨_, operator, isOperator⟩
    · exact Or.inl finished
    · rw [isWord] at isOperator
      cases isOperator
  · exact Or.inl has.delimit

theorem HasOperator.operate
    {number : Nat} (has : HasOperator number scan) (character : Char) :
    HasOperator number (scan.operate character) := by
  unfold Scan.operate
  split
  · split
    · rcases has with finished | ⟨isNumber, _⟩
      · exact Or.inl finished
      · exact Or.inr ⟨isNumber, _, rfl⟩
    · exact Or.inl has.delimit
  · exact Or.inl has.delimit

theorem HasOperator.step
    {number : Nat} (has : HasOperator number scan) (character : Char) :
    HasOperator number (scan.step character) := by
  have delimited : HasOperator number scan.delimit := Or.inl has.delimit
  unfold Scan.step
  split
  · unfold readUnquoted
    split_ifs <;>
      first
        | exact has
        | exact has.add _
        | exact has.operate _
        | exact delimited
        | skip
    · split
      · exact has.add _
      · exact delimited
    · split <;> exact has.add _
  · split
    · exact has
    · exact has.add _
  · split
    · exact has
    · exact has.add _
  · unfold readDouble
    split_ifs <;>
      first
        | exact has
        | exact has.add _
  · unfold readDoubleEscaped
    split_ifs <;>
      first
        | exact has
        | exact has.add _
  · split
    · have still : HasOperator number (scan.withQuoting .unquoted) := has
      exact still.operate character
    · exact has

theorem HasOperator.run
    {number : Nat} (has : HasOperator number scan) (text : List Char) :
    HasOperator number (scan.run text) := by
  induction text generalizing scan with
  | nil => exact has
  | cons character rest inductionHypothesis =>
      exact inductionHypothesis (has.step character)

/-- A character outside of quotes that is an operator makes the next token
one. -/
theorem hasOperator_operate
    (noOperator : ∀ operator, scan.token ≠ some (.operator operator))
    (character : Char) :
    HasOperator scan.all.length (scan.operate character) := by
  unfold Scan.operate
  split
  · rename_i operator isOperator
    exact absurd isOperator (noOperator operator)
  · exact Or.inr ⟨rfl, _, rfl⟩

/-! ## Nothing dropped -/

/-- Where every character arrives in the word that is being read, none of them
is special. -/
theorem ordinary_of_arrived
    {word : ShellWord} (unquoted : scan.quoting = .unquoted)
    (isWord : scan.token = some (.word word))
    (clear : (scan.run text).beyond = false)
    (noToken : (scan.run text).all.length = scan.all.length)
    (arrives : scan.arrived + text.length ≤ (scan.run text).arrived) :
    text.all isOrdinary = true := by
  induction text generalizing scan word with
  | nil => rfl
  | cons character rest inductionHypothesis =>
      rw [run_cons] at clear noToken arrives
      rw [List.length_cons] at arrives
      have later := arrived_run (scan.step character) rest
      have start : scan.arrived = tokensSize scan.all :=
        arrived_of_quoting unquoted (by decide)
      have stepped : scan.step character = scan.readUnquoted character := by
        simp only [step, unquoted]
      have read := @readUnquoted_step scan character unquoted
      rw [← stepped] at read
      cases read with
      | kept ordinary _ isNext =>
          have grown :
              scan.add [⟨character, false⟩] =
                { scan with
                  token := some (.word (word ++ [⟨character, false⟩])) } := by
            simp only [add, isWord]
          have sameCount :
              (scan.step character).all.length = scan.all.length := by
            rw [isNext, grown]
            simp [all, isWord]
          have one : (scan.step character).arrived = scan.arrived + 1 := by
            rw [isNext, start,
              arrived_of_quoting ((add_quoting _ _).trans unquoted)
                (by decide),
              size_add]
            rfl
          have stillUnquoted :
              (scan.step character).quoting = .unquoted := by
            rw [isNext, add_quoting, unquoted]
          have isGrown :
              (scan.step character).token =
                some (.word (word ++ [⟨character, false⟩])) := by
            rw [isNext, grown]
          rw [List.all_cons, ordinary, Bool.true_and]
          exact
            inductionHypothesis stillUnquoted isGrown clear
              (noToken.trans sameCount.symm) (by omega)
      | beyond isBeyond _ _ =>
          rw [beyond_run isBeyond rest] at clear
          cases clear
      | operated isNext =>
          have noOperator :
              ∀ operator, scan.token ≠ some (.operator operator) := by
            intro operator isOperator
            rw [isWord] at isOperator
            cases isOperator
          have has := hasOperator_operate noOperator character
          rw [← isNext] at has
          obtain ⟨operator, isOperator⟩ := (has.run rest).delimit
          rw [delimit_tokens, ← noToken,
            List.getElem?_eq_none (Nat.le_refl _)] at isOperator
          cases isOperator
      | dropped quoting other isQuoting same =>
          have dropped : (scan.step character).arrived = scan.arrived := by
            rw [start, arrived_of_quoting isQuoting other,
              same]
          omega

/-- A text that arrives as a whole in one word has nothing special in it. -/
theorem plain_of_arrived
    {tokens : List ShellToken} {word : ShellWord}
    (clear :
      (Scan.run ⟨tokens, none, .unquoted, false⟩ text).beyond = false)
    (arrives :
      (Scan.run ⟨tokens, none, .unquoted, false⟩ text).all =
        tokens ++ [.word word])
    (long : text.length ≤ word.length) :
    text ≠ [] ∧ text.head? ≠ some '#' ∧ text.all isOrdinary = true := by
  cases text with
  | nil =>
      have lengths := congrArg List.length arrives
      simp [all] at lengths
  | cons character rest =>
      refine ⟨List.cons_ne_nil _ _, ?_⟩
      generalize isStart :
        (⟨tokens, none, .unquoted, false⟩ : Scan) = scan
        at clear arrives
      have unquoted : scan.quoting = .unquoted := by rw [← isStart]
      have noToken : scan.token = none := by rw [← isStart]
      have isAll : scan.all = tokens := by
        rw [← isStart]
        exact List.append_nil _
      rw [run_cons] at clear arrives
      rw [List.length_cons] at long
      have whole :
          tokensSize tokens + word.length ≤
            ((scan.step character).run rest).arrived := by
        have size := size_le_arrived ((scan.step character).run rest)
        rw [arrives, tokensSize_append] at size
        exact size
      have later := arrived_run (scan.step character) rest
      have stepped : scan.step character = scan.readUnquoted character := by
        simp only [step, unquoted]
      have read := @readUnquoted_step scan character unquoted
      rw [← stepped] at read
      cases read with
      | kept ordinary noComment isNext =>
          have began :
              scan.add [⟨character, false⟩] =
                ⟨tokens, some (.word [⟨character, false⟩]), .unquoted,
                  scan.beyond⟩ := by
            simp only [add, noToken, delimit, unquoted,
              Option.toList_none, List.append_nil]
            rw [← isStart]
          have stillUnquoted :
              (scan.step character).quoting = .unquoted := by
            rw [isNext, add_quoting, unquoted]
          have isWord :
              (scan.step character).token =
                some (.word [⟨character, false⟩]) := by
            rw [isNext, began]
          have count :
              ((scan.step character).run rest).all.length =
                (scan.step character).all.length := by
            rw [arrives, isNext, began]
            simp [all]
          have one : (scan.step character).arrived = tokensSize tokens + 1 := by
            rw [isNext,
              arrived_of_quoting ((add_quoting _ _).trans unquoted)
                (by decide),
              size_add, isAll]
            rfl
          constructor
          · intro isHash
            obtain ⟨word, isWord⟩ := noComment (Option.some.inj isHash)
            rw [noToken] at isWord
            cases isWord
          · rw [List.all_cons, ordinary, Bool.true_and]
            exact
              ordinary_of_arrived stillUnquoted isWord clear count
                (by omega)
      | beyond isBeyond _ _ =>
          rw [beyond_run isBeyond rest] at clear
          cases clear
      | operated isNext =>
          have noOperator :
              ∀ operator, scan.token ≠ some (.operator operator) := by
            intro operator isOperator
            rw [noToken] at isOperator
            cases isOperator
          have has := hasOperator_operate noOperator character
          rw [← isNext] at has
          obtain ⟨operator, isOperator⟩ := (has.run rest).delimit
          rw [delimit_tokens, arrives, isAll,
            List.getElem?_append_right (Nat.le_refl _), Nat.sub_self]
            at isOperator
          cases isOperator
      | dropped quoting other isQuoting same =>
          have dropped :
              (scan.step character).arrived = tokensSize tokens := by
            rw [arrived_of_quoting isQuoting other, same,
              isAll]
          omega

/-! ## Double quotes -/

/-- A backslash outside of quotes is dropped. -/
theorem arrived_escaped
    (isEscaped : (scan.step character).quoting = .escaped) :
    scan.quoting = .unquoted ∧
      (scan.step character).arrived = scan.arrived := by
  cases quoting : scan.quoting with
  | unquoted =>
      refine ⟨rfl, ?_⟩
      have stepped : scan.step character = scan.readUnquoted character := by
        simp only [step, quoting]
      have read := @readUnquoted_step scan character quoting
      rw [← stepped] at read
      cases read with
      | kept _ _ isNext =>
          rw [isNext, add_quoting, quoting] at isEscaped
          cases isEscaped
      | beyond _ stays _ =>
          rw [stays] at isEscaped
          cases isEscaped
      | operated isNext =>
          rw [isNext, operate_quoting, quoting] at isEscaped
          cases isEscaped
      | dropped after other isQuoting same =>
          rw [arrived_of_quoting isQuoting other, same,
            arrived_of_quoting quoting (by decide)]
  | escaped =>
      simp only [step, quoting] at isEscaped
      split at isEscaped <;> cases isEscaped
  | single =>
      simp only [step, quoting] at isEscaped
      split at isEscaped
      · cases isEscaped
      · rw [add_quoting, quoting] at isEscaped
        cases isEscaped
  | double =>
      simp only [step, quoting] at isEscaped
      cases @readDouble_step scan character quoting with
      | closed _ after _ =>
          rw [after] at isEscaped
          cases isEscaped
      | escape _ after _ =>
          rw [after] at isEscaped
          cases isEscaped
      | beyond _ _ after _ =>
          rw [after] at isEscaped
          cases isEscaped
      | kept _ _ _ _ after _ =>
          rw [after] at isEscaped
          cases isEscaped
  | doubleEscaped =>
      simp only [step, quoting] at isEscaped
      cases @readDoubleEscaped_step scan character quoting with
      | dropped after _ _ =>
          rw [after] at isEscaped
          cases isEscaped
      | kept after _ _ =>
          rw [after] at isEscaped
          cases isEscaped
  | comment =>
      simp only [step, quoting] at isEscaped
      split at isEscaped
      · rw [operate_quoting] at isEscaped
        cases isEscaped
      · rw [quoting] at isEscaped
        cases isEscaped

theorem run_append_singleton
    (scan : Scan) (text : List Char) (character : Char) :
    scan.run (text ++ [character]) = (scan.run text).step character := by
  rw [run_append, run_cons, run_nil]

theorem arrived_run_escaped
    (unquoted : scan.quoting = .unquoted)
    (isEscaped : (scan.run text).quoting = .escaped) :
    (scan.run text).arrived + 1 ≤ scan.arrived + text.length := by
  rcases List.eq_nil_or_concat text with rfl | ⟨before, last, rfl⟩
  · rw [run_nil, unquoted] at isEscaped
    cases isEscaped
  · rw [List.concat_eq_append, run_append_singleton] at isEscaped ⊢
    have dropped := (arrived_escaped isEscaped).2
    have earlier := arrived_run scan before
    rw [dropped, List.length_append, List.length_singleton]
    omega

/-- Outside of quotes, a text that ends in a double quote loses something
before it comes to an end outside of quotes. -/
theorem arrived_reopened
    (unquoted : scan.quoting = .unquoted)
    (closed : (scan.run (text ++ ['"'])).quoting = .unquoted) :
    (scan.run (text ++ ['"'])).arrived ≤ scan.arrived + text.length := by
  rw [run_append_singleton] at closed ⊢
  have earlier := arrived_run scan text
  have last := arrived_step (scan.run text) '"'
  cases quoting : (scan.run text).quoting with
  | unquoted =>
      simp [step, quoting, readUnquoted] at closed
  | escaped =>
      have dropped := arrived_run_escaped unquoted quoting
      omega
  | single =>
      simp [step, quoting] at closed
  | double =>
      have same :
          ((scan.run text).step '"').arrived = (scan.run text).arrived := by
        simp only [step, quoting]
        cases @readDouble_step (scan.run text) '"' quoting with
        | closed _ _ same => exact same
        | escape isBackslash _ _ => cases isBackslash
        | beyond isExpansion _ _ _ => simp at isExpansion
        | kept notQuote _ _ _ _ _ => exact absurd rfl notQuote
      omega
  | doubleEscaped =>
      simp only [step, quoting] at closed
      cases @readDoubleEscaped_step (scan.run text) '"' quoting with
      | dropped after _ _ =>
          rw [after] at closed
          cases closed
      | kept after _ _ =>
          rw [after] at closed
          cases closed
  | comment =>
      simp [step, quoting] at closed

/-- Leaving double quotes drops a quote. -/
theorem arrived_closed
    (inside : scan.quoting = .double ∨ scan.quoting = .doubleEscaped)
    (closed : (scan.run text).quoting = .unquoted) :
    (scan.run text).arrived + 1 ≤ scan.arrived + text.length := by
  induction text generalizing scan with
  | nil =>
      rw [run_nil] at closed
      rcases inside with double | escaped
      · rw [double] at closed
        cases closed
      · rw [escaped] at closed
        cases closed
  | cons character rest inductionHypothesis =>
      rw [run_cons] at closed ⊢
      rw [List.length_cons]
      have later := arrived_run (scan.step character) rest
      rcases inside with double | escaped
      · have stepped : scan.step character = scan.readDouble character := by
          simp only [step, double]
        have read := @readDouble_step scan character double
        rw [← stepped] at read
        cases read with
        | closed _ _ same => omega
        | escape _ after more =>
            have bound := inductionHypothesis (Or.inr after) closed
            omega
        | beyond _ _ after same =>
            have bound := inductionHypothesis (Or.inl after) closed
            omega
        | kept _ _ _ _ after more =>
            have bound := inductionHypothesis (Or.inl after) closed
            omega
      · have stepped :
            scan.step character = scan.readDoubleEscaped character := by
          simp only [step, escaped]
        have read := @readDoubleEscaped_step scan character escaped
        rw [← stepped] at read
        cases read with
        | dropped after fewer _ =>
            have bound := inductionHypothesis (Or.inl after) closed
            omega
        | kept after more _ =>
            have bound := inductionHypothesis (Or.inl after) closed
            omega

/-- Where nothing but the closing quote is dropped, double quotes leave the
text as it is. -/
theorem doubleQuotable_of_arrived
    (double : scan.quoting = .double)
    (closed : (scan.run (text ++ ['"'])).quoting = .unquoted)
    (clear : (scan.run (text ++ ['"'])).beyond = false)
    (arrives :
      scan.arrived + text.length ≤ (scan.run (text ++ ['"'])).arrived) :
    isDoubleQuotable text = true := by
  fun_induction isDoubleQuotable text generalizing scan with
  | case1 => rfl
  | case2 =>
      simp [step, double, readDouble, readDoubleEscaped] at closed
  | case3 character rest inductionHypothesis =>
      have escaped : (scan.step '\\').quoting = .doubleEscaped ∧
          (scan.step '\\').arrived = scan.arrived + 1 := by
        simp only [step, double]
        cases @readDouble_step scan '\\' double with
        | closed isQuote _ _ => cases isQuote
        | escape _ after more => exact ⟨after, more⟩
        | beyond isExpansion _ _ _ => simp at isExpansion
        | kept _ notBackslash _ _ _ _ => exact absurd rfl notBackslash
      rw [List.cons_append, List.cons_append, run_cons, run_cons]
        at closed clear arrives
      rw [List.length_cons, List.length_cons] at arrives
      obtain ⟨isEscaped, counted⟩ := escaped
      generalize scan.step '\\' = middle at *
      have stepped :
          middle.step character = middle.readDoubleEscaped character := by
        simp only [step, isEscaped]
      have read := @readDoubleEscaped_step middle character isEscaped
      rw [← stepped] at read
      cases read with
      | dropped after fewer _ =>
          have bound := arrived_closed (Or.inl after) closed
          rw [List.length_append, List.length_singleton] at bound
          omega
      | kept after more plain =>
          rw [plain, Bool.not_false, Bool.true_and]
          exact inductionHypothesis after closed clear (by omega)
  | case4 character rest notLast notEscape inductionHypothesis =>
      have noBackslash : character ≠ '\\' := by
        rintro rfl
        cases rest with
        | nil => exact notLast rfl rfl
        | cons next more => exact notEscape next more rfl rfl
      rw [List.cons_append, run_cons] at closed clear arrives
      rw [List.length_cons] at arrives
      have stepped : scan.step character = scan.readDouble character := by
        simp only [step, double]
      have read := @readDouble_step scan character double
      rw [← stepped] at read
      cases read with
      | closed _ after same =>
          have bound := arrived_reopened after closed
          omega
      | escape isBackslash _ _ => exact absurd isBackslash noBackslash
      | beyond _ isBeyond _ _ =>
          rw [beyond_run isBeyond] at clear
          cases clear
      | kept notQuote _ notDollar notBackquote after more =>
          have plain :
              ['"', '$', '\x60'].contains character = false := by
            simp [notQuote, notDollar, notBackquote]
          rw [plain, Bool.not_false, Bool.true_and]
          exact inductionHypothesis after closed clear (by omega)

/-! ## Quotes that nothing closes -/

theorem quoting_single
    (single : scan.quoting = .single) (noQuote : '\'' ∉ text) :
    (scan.run text).quoting = .single := by
  induction text generalizing scan with
  | nil => exact single
  | cons character rest inductionHypothesis =>
      obtain ⟨first, others⟩ := not_or.mp (List.mem_cons.not.mp noQuote)
      refine inductionHypothesis ?_ others
      simp only [step, single, if_neg (Ne.symm first), add_quoting]

theorem quoting_double
    (inside : scan.quoting = .double ∨ scan.quoting = .doubleEscaped)
    (noQuote : '"' ∉ text) :
    (scan.run text).quoting = .double ∨
      (scan.run text).quoting = .doubleEscaped := by
  induction text generalizing scan with
  | nil => exact inside
  | cons character rest inductionHypothesis =>
      obtain ⟨first, others⟩ := not_or.mp (List.mem_cons.not.mp noQuote)
      refine inductionHypothesis ?_ others
      rcases inside with double | escaped
      · simp only [step, double]
        cases @readDouble_step scan character double with
        | closed isQuote _ _ => exact absurd isQuote.symm first
        | escape _ after _ => exact Or.inr after
        | beyond _ _ after _ => exact Or.inl after
        | kept _ _ _ _ after _ => exact Or.inl after
      · simp only [step, escaped]
        cases @readDoubleEscaped_step scan character escaped with
        | dropped after _ _ => exact Or.inl after
        | kept after _ _ => exact Or.inl after

theorem run_comment
    (comment : scan.quoting = .comment) (noNewline : '\n' ∉ text) :
    scan.run text = scan := by
  induction text with
  | nil => rfl
  | cons character rest inductionHypothesis =>
      obtain ⟨first, others⟩ := not_or.mp (List.mem_cons.not.mp noNewline)
      have same : scan.step character = scan := by
        simp only [step, comment, if_neg (Ne.symm first)]
      rw [run_cons, same, inductionHypothesis others]

theorem finish_eq_some
    {final : List ShellToken} (finished : scan.finish = some final) :
    scan.beyond = false ∧
      (scan.quoting = .unquoted ∨ scan.quoting = .comment) ∧
        final = scan.all := by
  unfold finish at finished
  split at finished
  · cases finished
  · rename_i clear
    split at finished
    · rename_i ended
      exact
        ⟨by simpa using clear, ended, (Option.some.inj finished).symm⟩
    · cases finished

/-! ## Before plain words -/

/-- A text that stands for itself as a word. -/
structure IsPlainText (text : List Char) : Prop where
  notEmpty : text ≠ []
  noComment : text.head? ≠ some '#'
  ordinary : text.all isOrdinary = true

/-- Nothing that opens, closes or ends anything. -/
theorem IsPlainText.not_mem
    (plain : IsPlainText text) {special : Char}
    (isSpecial : isOrdinary special = false) : special ∉ text := by
  intro member
  have ordinary := List.all_eq_true.mp plain.ordinary special member
  rw [isSpecial] at ordinary
  cases ordinary

theorem not_mem_joined
    {special : Char} (isSpecial : isOrdinary special = false)
    (notSpace : special ≠ ' ') {texts : List (List Char)}
    (plain : ∀ text ∈ texts, IsPlainText text) :
    special ∉ List.intercalate [' '] texts := by
  induction texts with
  | nil => simp [List.intercalate]
  | cons text rest inductionHypothesis =>
      have here := (plain text List.mem_cons_self).not_mem isSpecial
      have later :=
        inductionHypothesis fun other member =>
          plain other (List.mem_cons_of_mem _ member)
      cases rest with
      | nil =>
          rw [List.intercalate_singleton]
          exact here
      | cons next others =>
          rw [List.intercalate_cons_cons]
          simp only [List.mem_append, List.mem_singleton, not_or]
          exact ⟨⟨here, notSpace⟩, later⟩

/-- The words that plain texts stand for. -/
def plainTokens (texts : List (List Char)) : List ShellToken :=
  texts.map fun text => .word (plainWord text)

theorem reads_plainTokens
    {texts : List (List Char)}
    (plain : ∀ text ∈ texts, IsPlainText text) :
    List.Forall₂ Reads texts (plainTokens texts) := by
  rw [plainTokens, List.forall₂_map_right_iff, List.forall₂_same]
  intro text member
  obtain ⟨notEmpty, noComment, ordinary⟩ := plain text member
  exact reads_plain ordinary notEmpty noComment

/-- What a scan that is followed by plain words comes to. -/
inductive BeforePlain (scan : Scan) (first : List Char)
    (rest : List (List Char)) (final : List ShellToken) : Prop
  | unquoted :
      scan.quoting = .unquoted →
      final = scan.all ++ plainTokens (first :: rest) →
      BeforePlain scan first rest final
  | escaped (tokens : List ShellToken) (word : ShellWord) :
      final =
        tokens ++
          .word (word ++ ⟨' ', true⟩ :: plainWord first) ::
            plainTokens rest →
      BeforePlain scan first rest final
  | comment :
      final = scan.all →
      BeforePlain scan first rest final

/-- Texts that read as tokens, with a blank behind each of them. -/
theorem run_separated
    {texts : List (List Char)} {others : List ShellToken}
    (tokens : List ShellToken) (reads : List.Forall₂ Reads texts others) :
    Scan.run ⟨tokens, none, .unquoted, false⟩
        (texts.flatMap fun text => text ++ [' ']) =
      ⟨tokens ++ others, none, .unquoted, false⟩ := by
  induction reads generalizing tokens with
  | nil => rw [List.append_nil, List.flatMap_nil, run_nil]
  | cons first _ inductionHypothesis =>
      rw [List.flatMap_cons, run_append, run_append, first, run_cons,
        step_blank, run_nil, inductionHypothesis, List.append_assoc]
      rfl

theorem intercalate_append
    (first : List (List Char)) (text : List Char)
    (rest : List (List Char)) :
    List.intercalate [' '] (first ++ text :: rest) =
      (first.flatMap fun text => text ++ [' ']) ++
        List.intercalate [' '] (text :: rest) := by
  induction first with
  | nil => rfl
  | cons other others inductionHypothesis =>
      rw [List.cons_append,
        List.intercalate_cons_of_ne_nil (by simp), inductionHypothesis,
        List.flatMap_cons, List.append_assoc, List.append_assoc,
        List.append_assoc]

theorem clear_of_finish
    {final : List ShellToken}
    (finished : (scan.run text).finish = some final) :
    scan.beyond = false := by
  by_contra isBeyond
  have stays := beyond_run (by simpa using isBeyond) text
  rw [(finish_eq_some finished).1] at stays
  cases stays

/-- An escaped blank goes into a word. -/
theorem step_escaped_blank
    (escaped : scan.quoting = .escaped) (clear : scan.beyond = false) :
    ∃ tokens word,
      scan.step ' ' =
        ⟨tokens, some (.word (word ++ [⟨' ', true⟩])), .unquoted,
          false⟩ := by
  have stepped :
      scan.step ' ' =
        (scan.add [⟨' ', true⟩]).withQuoting .unquoted := by
    simp [step, escaped]
  rw [stepped]
  unfold add
  split
  · rename_i word isWord
    refine ⟨scan.tokens, word, ?_⟩
    simp only [withQuoting, clear]
  · refine ⟨scan.all, [], ?_⟩
    simp only [withQuoting, delimit, clear, List.nil_append]
    rfl

theorem finish_before_plain
    {first : List Char} {rest : List (List Char)}
    {final : List ShellToken}
    (plain : ∀ text ∈ first :: rest, IsPlainText text)
    (finished :
      (scan.run (' ' :: List.intercalate [' '] (first :: rest))).finish =
        some final) :
    scan.beyond = false ∧ BeforePlain scan first rest final := by
  have clear := clear_of_finish finished
  have firstPlain := plain first List.mem_cons_self
  have restPlain :
      ∀ text ∈ rest, IsPlainText text :=
    fun text member => plain text (List.mem_cons_of_mem _ member)
  have readsFirst : Reads first (.word (plainWord first)) :=
    reads_plain firstPlain.ordinary firstPlain.notEmpty
      firstPlain.noComment
  obtain ⟨_, ended, isAll⟩ := finish_eq_some finished
  have absent :
      ∀ special : Char, isOrdinary special = false → special ≠ ' ' →
        special ∉ ' ' :: List.intercalate [' '] (first :: rest) := by
    intro special isSpecial notSpace
    rw [List.mem_cons, not_or]
    exact ⟨notSpace, not_mem_joined isSpecial notSpace plain⟩
  refine ⟨clear, ?_⟩
  cases quoting : scan.quoting with
  | unquoted =>
      refine BeforePlain.unquoted quoting ?_
      have stepped :
          scan.step ' ' = ⟨scan.all, none, .unquoted, false⟩ := by
        simp only [step, quoting]
        rw [← clear, ← quoting]
        rfl
      rw [run_cons, stepped,
        run_joined scan.all readsFirst (reads_plainTokens restPlain)]
        at finished
      exact (Option.some.inj finished).symm
  | escaped =>
      obtain ⟨tokens, word, stepped⟩ := step_escaped_blank quoting clear
      refine BeforePlain.escaped tokens word ?_
      rw [run_cons, stepped] at finished
      cases rest with
      | nil =>
          rw [List.intercalate_singleton,
            run_ordinary tokens _ firstPlain.ordinary] at finished
          rw [← Option.some.inj finished, List.append_assoc]
          rfl
      | cons next others =>
          have readsNext : Reads next (.word (plainWord next)) := by
            have nextPlain := restPlain next List.mem_cons_self
            exact
              reads_plain nextPlain.ordinary nextPlain.notEmpty
                nextPlain.noComment
          have readsOthers :=
            reads_plainTokens fun text member =>
              restPlain text (List.mem_cons_of_mem _ member)
          rw [List.intercalate_cons_cons, run_append, run_append,
            run_ordinary tokens _ firstPlain.ordinary, run_cons,
            step_blank, run_nil, run_joined _ readsNext readsOthers]
            at finished
          rw [← Option.some.inj finished, List.append_assoc,
            List.append_assoc]
          rfl
  | single =>
      have stays := quoting_single quoting (absent '\'' rfl (by decide))
      rw [stays] at ended
      rcases ended with unquoted | comment
      · cases unquoted
      · cases comment
  | double =>
      have stays :=
        quoting_double (Or.inl quoting) (absent '"' rfl (by decide))
      rcases stays with stays | stays <;> rw [stays] at ended <;>
        rcases ended with unquoted | comment
      · cases unquoted
      · cases comment
      · cases unquoted
      · cases comment
  | doubleEscaped =>
      have stays :=
        quoting_double (Or.inr quoting) (absent '"' rfl (by decide))
      rcases stays with stays | stays <;> rw [stays] at ended <;>
        rcases ended with unquoted | comment
      · cases unquoted
      · cases comment
      · cases unquoted
      · cases comment
  | comment =>
      refine BeforePlain.comment ?_
      rw [isAll, run_comment quoting (absent '\n' rfl (by decide))]

/-! ## Tokens that are there already -/

theorem tokens_prefix_delimit (scan : Scan) :
    scan.tokens <+: scan.delimit.tokens :=
  List.prefix_append _ _

theorem tokens_prefix_add (scan : Scan) (characters : ShellWord) :
    scan.tokens <+: (scan.add characters).tokens := by
  unfold add
  split
  · exact List.prefix_rfl
  · exact tokens_prefix_delimit scan

theorem tokens_prefix_operate (scan : Scan) (character : Char) :
    scan.tokens <+: (scan.operate character).tokens := by
  unfold operate
  split
  · split
    · exact List.prefix_rfl
    · exact tokens_prefix_delimit scan
  · exact tokens_prefix_delimit scan

theorem tokens_prefix_step (scan : Scan) (character : Char) :
    scan.tokens <+: (scan.step character).tokens := by
  unfold step
  split
  · unfold readUnquoted
    repeat' split
    all_goals
      first
        | exact List.prefix_rfl
        | exact tokens_prefix_add scan _
        | exact tokens_prefix_delimit scan
        | exact tokens_prefix_operate scan _
  · split
    · exact List.prefix_rfl
    · exact tokens_prefix_add scan _
  · split
    · exact List.prefix_rfl
    · exact tokens_prefix_add scan _
  · unfold readDouble
    repeat' split
    all_goals
      first
        | exact List.prefix_rfl
        | exact tokens_prefix_add scan _
  · unfold readDoubleEscaped
    repeat' split
    all_goals
      first
        | exact List.prefix_rfl
        | exact tokens_prefix_add scan _
  · split
    · exact tokens_prefix_operate (scan.withQuoting .unquoted) character
    · exact List.prefix_rfl

theorem tokens_prefix_run (scan : Scan) (text : List Char) :
    scan.tokens <+: (scan.run text).tokens := by
  induction text generalizing scan with
  | nil => exact List.prefix_rfl
  | cons character rest inductionHypothesis =>
      exact
        (tokens_prefix_step scan character).trans
          (inductionHypothesis (scan.step character))

end Scan

/-! ## Expansion in a shell where every directory is the root -/

/-- A quoted character is in no tilde-prefix. -/
theorem quoted_mem_expandTilde
    (shell : ShellEnvironment) {word : ShellWord} {character : Char}
    (member : ⟨character, true⟩ ∈ word) :
    ⟨character, true⟩ ∈ shell.expandTilde word := by
  unfold ShellEnvironment.expandTilde
  split
  · rename_i directory isDirectory
    rw [List.mem_append]
    right
    have parts :
        tildePrefix word ++ word.drop (tildePrefix word).length = word :=
      List.prefix_iff_eq_append.mp (List.takeWhile_prefix _)
    rw [← parts, List.mem_append] at member
    rcases member with inPrefix | later
    · exfalso
      unfold ShellEnvironment.tildeDirectory at isDirectory
      split at isDirectory
      · rename_i name isPrefix
        split at isDirectory
        · rename_i unquoted
          rw [isPrefix, List.mem_cons] at inPrefix
          rcases inPrefix with isTilde | inName
          · cases isTilde
          · have noQuote := List.all_eq_true.mp unquoted _ inName
            cases noQuote
        · cases isDirectory
      · cases isDirectory
    · exact later
  · exact member

/-- An unquoted word with a tilde in front is replaced by what begins with a
slash. -/
theorem head_expandTilde
    {shell : ShellEnvironment}
    (home : shell.home.toList.head? = some '/')
    (login :
      ∀ name, ∃ directory, shell.login name = some directory ∧
        directory.toList.head? = some '/')
    (text : List Char) :
    (wordText (shell.expandTilde (plainWord ('~' :: text)))).toList.head? =
      some '/' := by
  obtain ⟨name, isPrefix, unquoted⟩ :
      ∃ name, tildePrefix (plainWord ('~' :: text)) =
          ⟨'~', false⟩ :: name ∧
        (name.all fun character => !character.quoted) = true := by
    refine ⟨tildePrefix (plainWord text), ?_, ?_⟩
    · simp [tildePrefix, plainWord]
    · rw [List.all_eq_true]
      intro character member
      have inText := (List.takeWhile_prefix _).subset member
      simp only [plainWord, List.mem_map] at inText
      obtain ⟨_, _, rfl⟩ := inText
      rfl
  obtain ⟨directory, isDirectory, absolute⟩ :
      ∃ directory,
        shell.tildeDirectory (plainWord ('~' :: text)) =
            some directory ∧
          directory.toList.head? = some '/' := by
    simp only [ShellEnvironment.tildeDirectory, isPrefix, unquoted,
      if_true]
    by_cases noName : name = []
    · exact ⟨shell.home, if_pos noName, home⟩
    · rw [if_neg noName]
      exact login (wordText name)
  cases characters : directory.toList with
  | nil =>
      rw [characters] at absolute
      cases absolute
  | cons first rest =>
      rw [characters] at absolute
      simpa [ShellEnvironment.expandTilde, isDirectory, wordText,
        quotedWord, characters] using absolute

/-- No matching paths, and no directories but the root. -/
def bareShell : ShellEnvironment where
  home := "/"
  login := fun _ => some "/"
  matching := fun _ => []

theorem fields_bareShell (word : ShellWord) :
    bareShell.fields word = [wordText (bareShell.expandTilde word)] := by
  unfold ShellEnvironment.fields
  exact ite_self _

theorem length_wordText (word : ShellWord) :
    (wordText word).toList.length = word.length := by
  simp [wordText]

/-- The root is not longer than what it stands for. -/
theorem length_expandTilde_bareShell (word : ShellWord) :
    (bareShell.expandTilde word).length ≤ word.length := by
  unfold ShellEnvironment.expandTilde
  split
  · rename_i directory isDirectory
    unfold ShellEnvironment.tildeDirectory at isDirectory
    split at isDirectory
    · rename_i name isPrefix
      have isRoot : directory = "/" := by
        split at isDirectory
        · split at isDirectory
          · exact (Option.some.inj isDirectory).symm
          · exact (Option.some.inj isDirectory).symm
        · cases isDirectory
      have short : (tildePrefix word).length ≤ word.length :=
        (List.takeWhile_prefix _).length_le
      rw [isPrefix, List.length_cons] at short
      rw [isRoot, isPrefix, quotedWord]
      simp only [List.length_append, List.length_map, List.length_drop,
        List.length_cons]
      have one : "/".toList.length = 1 := rfl
      omega
    · cases isDirectory
  · exact Nat.le_refl _

/-! ## The words of one command -/

/-- There is always a first command, and it keeps its redirection. -/
theorem first_of_commandsFrom
    {current : SimpleCommand} {tokens : List ShellToken}
    {found : List SimpleCommand}
    (parsed : commandsFrom current tokens = some found) :
    ∃ first rest, found = first :: rest ∧
      (current.output ≠ none → first.output ≠ none) := by
  fun_induction commandsFrom current tokens generalizing found with
  | case1 current =>
      cases parsed
      exact ⟨current, [], rfl, id⟩
  | case2 current word rest inductionHypothesis =>
      exact inductionHypothesis parsed
  | case4 current word rest inductionHypothesis =>
      obtain ⟨first, later, isFound, keeps⟩ := inductionHypothesis parsed
      exact ⟨first, later, isFound, fun _ => keeps nofun⟩
  | case5 current word rest notOutput inductionHypothesis =>
      rw [Option.map_eq_some_iff] at parsed
      obtain ⟨later, _, rfl⟩ := parsed
      exact ⟨current, later, rfl, id⟩
  | _ => cases parsed

theorem tokens_of_commandsFrom
    {current command : SimpleCommand} {tokens : List ShellToken}
    (parsed : commandsFrom current tokens = some [command])
    (noOutput : command.output = none) :
    ∃ words : List ShellWord,
      tokens = words.map ShellToken.word ∧
        command.words = current.words ++ words := by
  fun_induction commandsFrom current tokens with
  | case1 current =>
      cases parsed
      exact ⟨[], rfl, (List.append_nil _).symm⟩
  | case2 current word rest inductionHypothesis =>
      obtain ⟨words, areWords, same⟩ := inductionHypothesis parsed
      refine ⟨word :: words, ?_, ?_⟩
      · rw [areWords, List.map_cons]
      · rw [same, List.append_assoc]
        rfl
  | case4 current word rest _ =>
      obtain ⟨first, later, isFound, keeps⟩ := first_of_commandsFrom parsed
      cases isFound
      exact absurd noOutput (keeps nofun)
  | case5 current word rest _ _ =>
      rw [Option.map_eq_some_iff] at parsed
      obtain ⟨later, parsedLater, isFound⟩ := parsed
      obtain ⟨first, more, isLater, _⟩ := first_of_commandsFrom parsedLater
      rw [isLater] at isFound
      cases isFound
  | _ => cases parsed

end Quiczilla.Foundation
