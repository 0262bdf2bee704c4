import Mathlib.Data.List.Induction
import Mathlib.Data.List.TakeWhile

/-!
# Command lines with options

Two readers of an argument vector.  `CommandSpec.accept` is the strict grammar
of an argument parser: `--name value` and `--name=value`, `-nVALUE`, `-n=VALUE`
and `-n VALUE`, grouped short flags, options anywhere among the positionals,
and `--`, behind which everything is positional.  No option may be given twice,
and a value that stands for itself does not begin with a dash.

`scanArguments` is a loop over the arguments that acts on the tokens it knows
and passes over all others.  The two agree on vectors in which every option is
written as a token of its own.
-/

namespace Quiczilla.Foundation

universe u v w

/-- A token that looks like an option; a single dash does not. -/
def isDashed (token : String) : Bool :=
  token.toList.head? == some '-' && token != "-"

structure OptionSpec (Id : Type u) where
  id : Id
  names : List String
  takesValue : Bool
  /-- The value parser. -/
  accepts : String → Bool

structure CommandSpec (Id : Type u) where
  options : List (OptionSpec Id)
  requiredOptions : List Id
  /-- How many positionals there must and may be. -/
  required : Nat
  maximum : Nat

inductive Occurrence (Id : Type u) where
  | positional (text : String)
  | option (id : Id) (value : Option String)
  deriving DecidableEq, Repr

namespace Occurrence

variable {Id : Type u} [DecidableEq Id]

def positional? : Occurrence Id → Option String
  | .positional text => some text
  | .option _ _ => none

def id? : Occurrence Id → Option Id
  | .positional _ => none
  | .option id _ => some id

def valueOf (id : Id) : Occurrence Id → Option String
  | .positional _ => none
  | .option other value => if other = id then value else none

end Occurrence

/-! ## The strict grammar -/

namespace CommandSpec

variable {Id : Type u} (spec : CommandSpec Id)

def named (token : String) : Option (OptionSpec Id) :=
  spec.options.find? fun option => option.names.contains token

/-- The options of one token; the last of them may wait for its value. -/
abbrev Reading (Id : Type u) :=
  List (Occurrence Id) × Option (OptionSpec Id)

def readLong (token : List Char) : Option (Reading Id) :=
  match spec.named (String.ofList (token.takeWhile (· != '='))),
      token.dropWhile (· != '=') with
  | none, _ => none
  | some option, [] =>
      if option.takesValue then some ([], some option)
      else some ([.option option.id none], none)
  | some option, _ :: value =>
      if option.takesValue then
        some ([.option option.id (some (String.ofList value))], none)
      else none

/-- A group of short options. -/
def readShorts : List Char → Option (Reading Id)
  | [] => some ([], none)
  | letter :: rest =>
      match spec.named (String.ofList ['-', letter]) with
      | none => none
      | some option =>
          if option.takesValue then
            match rest with
            | [] => some ([], some option)
            | '=' :: value =>
                some
                  ([.option option.id (some (String.ofList value))],
                    none)
            | value =>
                some
                  ([.option option.id (some (String.ofList value))],
                    none)
          else
            (readShorts rest).map fun reading =>
              (.option option.id none :: reading.1, reading.2)

def readToken (token : String) : Option (Reading Id) :=
  match token.toList with
  | '-' :: '-' :: rest => spec.readLong ('-' :: '-' :: rest)
  | '-' :: letters => spec.readShorts letters
  | _ => none

def parse : List String → Option (List (Occurrence Id))
  | [] => some []
  | token :: rest =>
      if token = "--" then some (rest.map .positional)
      else if isDashed token then
        match spec.readToken token with
        | none => none
        | some (occurrences, none) =>
            (parse rest).map (occurrences ++ ·)
        | some (occurrences, some pending) =>
            match rest with
            | [] => none
            | value :: others =>
                if isDashed value then none
                else
                  (parse others).map fun later =>
                    occurrences ++
                      .option pending.id (some value) :: later
      else (parse rest).map (.positional token :: ·)

variable [DecidableEq Id]

def positionals (occurrences : List (Occurrence Id)) : List String :=
  occurrences.filterMap Occurrence.positional?

def given (occurrences : List (Occurrence Id)) (id : Id) : Bool :=
  occurrences.any fun occurrence => occurrence.id? = some id

def value? (occurrences : List (Occurrence Id)) (id : Id) :
    Option String :=
  occurrences.findSome? (Occurrence.valueOf id)

/-- The checks behind the grammar. -/
def Admits (occurrences : List (Occurrence Id)) : Prop :=
  spec.required ≤ (positionals occurrences).length ∧
    (positionals occurrences).length ≤ spec.maximum ∧
      (occurrences.filterMap Occurrence.id?).Nodup ∧
        (∀ option ∈ spec.options,
          (value? occurrences option.id).all option.accepts = true) ∧
          ∀ id ∈ spec.requiredOptions, given occurrences id = true

instance (occurrences : List (Occurrence Id)) :
    Decidable (spec.Admits occurrences) :=
  inferInstanceAs (Decidable (_ ∧ _ ∧ _ ∧ _ ∧ _))

/-- What a vector is accepted as. -/
def accept (arguments : List String) :
    Option (List (Occurrence Id)) :=
  (spec.parse arguments).filter fun occurrences =>
    spec.Admits occurrences

end CommandSpec

/-! ## The scan -/

/-- What a scanner does with the tokens it knows. -/
structure Scanner (State : Type u) (Known : Type v) (Error : Type w) where
  known : List (String × Known)
  takesValue : Known → Bool
  set : State → Known → State
  assign : State → Known → String → Except Error State
  /-- A known option at the end, without its value. -/
  missing : State → Known → Except Error State

namespace Scanner

variable {State : Type u} {Known : Type v} {Error : Type w}
  (scanner : Scanner State Known Error)

def scan (state : State) : List String → Except Error State
  | [] => .ok state
  | token :: rest =>
      match scanner.known.lookup token with
      | none => scan state rest
      | some known =>
          if scanner.takesValue known then
            match rest with
            | [] => scanner.missing state known
            | value :: others =>
                match scanner.assign state known value with
                | .ok assigned => scan assigned others
                | .error error => .error error
          else scan (scanner.set state known) rest

variable {scanner} {state : State}

theorem scan_unknown
    {token : String} (unknown : scanner.known.lookup token = none)
    (rest : List String) :
    scanner.scan state (token :: rest) = scanner.scan state rest := by
  rw [scan, unknown]

theorem scan_flag
    {token : String} {known : Known}
    (isKnown : scanner.known.lookup token = some known)
    (flag : scanner.takesValue known = false) (rest : List String) :
    scanner.scan state (token :: rest) =
      scanner.scan (scanner.set state known) rest := by
  rw [scan, isKnown]
  simp only [flag, Bool.false_eq_true, if_false]

theorem scan_value
    {token value : String} {known : Known} {assigned : State}
    (isKnown : scanner.known.lookup token = some known)
    (takes : scanner.takesValue known = true)
    (assigns : scanner.assign state known value = .ok assigned)
    (rest : List String) :
    scanner.scan state (token :: value :: rest) =
      scanner.scan assigned rest := by
  rw [scan, isKnown]
  simp only [takes, if_true, assigns]

/-- Tokens that are not known are passed over. -/
theorem scan_unknowns
    {tokens : List String}
    (unknown : ∀ token ∈ tokens, scanner.known.lookup token = none)
    (rest : List String) :
    scanner.scan state (tokens ++ rest) = scanner.scan state rest := by
  induction tokens with
  | nil => rfl
  | cons token others inductionHypothesis =>
      rw [List.cons_append,
        scan_unknown (unknown token List.mem_cons_self)]
      exact
        inductionHypothesis fun other member =>
          unknown other (List.mem_cons_of_mem _ member)

end Scanner

/-- A scan for the token behind the first `name`, as `windows(2)` finds it. -/
def optionValue (arguments : List String) (name : String) :
    Option String :=
  ((arguments.zip arguments.tail).find? fun pair => pair.1 == name).map
    Prod.snd

theorem optionValue_cons
    {token : String} {rest : List String} {name : String}
    (other : token ≠ name) :
    optionValue (token :: rest) name = optionValue rest name := by
  unfold optionValue
  cases rest with
  | nil => rfl
  | cons next others =>
      have notName : (token == name) = false := by
        simpa using other
      simp only [List.tail_cons, List.zip_cons_cons, List.find?_cons,
        notName]

theorem optionValue_name
    {name value : String} {rest : List String} :
    optionValue (name :: value :: rest) name = some value := by
  simp [optionValue]

theorem optionValue_eq_none
    {arguments : List String} {name : String}
    (absent : name ∉ arguments) :
    optionValue arguments name = none := by
  induction arguments with
  | nil => rfl
  | cons token rest inductionHypothesis =>
      rw [List.mem_cons, not_or] at absent
      rw [optionValue_cons (Ne.symm absent.1)]
      exact inductionHypothesis absent.2

/-! ## Options as tokens of their own -/

/-- The vector spells the occurrences with one token for each option name and
one for each value, and hides no `forbidden` token behind `--`. -/
inductive Spelled {Id : Type u} (spec : CommandSpec Id)
    (forbidden : List String) :
    List String → List (Occurrence Id) → Prop
  | nil : Spelled spec forbidden [] []
  | positional {token : String} {rest : List String}
      {later : List (Occurrence Id)} :
      isDashed token = false →
      Spelled spec forbidden rest later →
      Spelled spec forbidden (token :: rest) (.positional token :: later)
  | flag {token : String} {option : OptionSpec Id} {rest : List String}
      {later : List (Occurrence Id)} :
      spec.named token = some option →
      option.takesValue = false →
      Spelled spec forbidden rest later →
      Spelled spec forbidden (token :: rest)
        (.option option.id none :: later)
  | value {token value : String} {option : OptionSpec Id}
      {rest : List String} {later : List (Occurrence Id)} :
      spec.named token = some option →
      option.takesValue = true →
      isDashed value = false →
      Spelled spec forbidden rest later →
      Spelled spec forbidden (token :: value :: rest)
        (.option option.id (some value) :: later)
  | escape {rest : List String} :
      (∀ token ∈ rest, token ∉ forbidden) →
      Spelled spec forbidden ("--" :: rest) (rest.map .positional)

/-- A short name is a dash and a letter; a long name begins with two dashes
and has no `=`. -/
def isOptionName (name : String) : Bool :=
  match name.toList with
  | ['-', letter] => letter != '-'
  | '-' :: '-' :: rest => !rest.isEmpty && rest.all (· != '=')
  | _ => false

def CommandSpec.IsWellFormed {Id : Type u} (spec : CommandSpec Id) :
    Prop :=
  ∀ option ∈ spec.options, ∀ name ∈ option.names,
    isOptionName name = true

/-- Every option before `--` is the name of one, and no `forbidden` token
stands behind it. -/
def CommandSpec.spellsOut {Id : Type u} (spec : CommandSpec Id)
    (forbidden : List String) : List String → Bool
  | [] => true
  | token :: rest =>
      if token = "--" then
        rest.all fun other => !forbidden.contains other
      else
        (!isDashed token || (spec.named token).isSome) &&
          spellsOut spec forbidden rest

section Spelled

variable {Id : Type u} {spec : CommandSpec Id}
  {forbidden : List String}

theorem mem_names_of_named
    {token : String} {option : OptionSpec Id}
    (named : spec.named token = some option) :
    option ∈ spec.options ∧ token ∈ option.names := by
  have contains := List.find?_some named
  exact
    ⟨List.mem_of_find?_eq_some named, by simpa using contains⟩

theorem isOptionName_named
    {token : String} {option : OptionSpec Id}
    (wellFormed : spec.IsWellFormed)
    (named : spec.named token = some option) :
    isOptionName token = true := by
  obtain ⟨member, isName⟩ := mem_names_of_named named
  exact wellFormed option member token isName

/-- The grammar reads the name of an option as that option. -/
theorem readToken_named
    {token : String} {option : OptionSpec Id}
    (wellFormed : spec.IsWellFormed)
    (named : spec.named token = some option) :
    spec.readToken token =
      if option.takesValue then some ([], some option)
      else some ([.option option.id none], none) := by
  have isName := isOptionName_named wellFormed named
  have spelled : String.ofList token.toList = token :=
    String.ofList_toList
  unfold isOptionName at isName
  unfold CommandSpec.readToken
  split at isName
  · rename_i letter isToken
    have notDash : letter ≠ '-' := by
      simpa using isName
    rw [isToken] at spelled ⊢
    split
    · rename_i rest same
      simp only [List.cons.injEq] at same
      exact absurd same.2.1 notDash
    · rename_i letters _ same
      obtain rfl : [letter] = letters := (List.cons.inj same).2
      rw [CommandSpec.readShorts, spelled, named]
      by_cases takes : option.takesValue = true
      · simp only [takes, if_true]
      · simp only [takes, Bool.false_eq_true, if_false,
          CommandSpec.readShorts, Option.map_some]
    · rename_i _ noDash
      exact absurd rfl (noDash [letter])
  · rename_i rest _ isToken
    rw [Bool.and_eq_true] at isName
    have noEquals :
        ∀ character ∈ '-' :: '-' :: rest, (character != '=') = true := by
      intro character member
      rcases List.mem_cons.mp member with rfl | member
      · decide
      · rcases List.mem_cons.mp member with rfl | member
        · decide
        · exact List.all_eq_true.mp isName.2 character member
    rw [isToken] at spelled ⊢
    simp only [CommandSpec.readLong,
      List.takeWhile_eq_self_iff.mpr noEquals,
      List.dropWhile_eq_nil_iff.mpr noEquals, spelled, named]
  · cases isName

theorem isDashed_named
    {token : String} {option : OptionSpec Id}
    (wellFormed : spec.IsWellFormed)
    (named : spec.named token = some option) :
    isDashed token = true ∧ token ≠ "--" := by
  have isName := isOptionName_named wellFormed named
  constructor
  · by_cases single : token = "-"
    · rw [single] at isName
      cases isName
    · have leading : token.toList.head? = some '-' := by
        unfold isOptionName at isName
        split at isName
        · rename_i isToken
          rw [isToken]
          rfl
        · rename_i isToken
          rw [isToken]
          rfl
        · cases isName
      simp [isDashed, leading, single]
  · rintro rfl
    cases isName

theorem spellsOut_tail
    {token : String} {rest : List String} (notEscape : token ≠ "--")
    (spelledOut : spec.spellsOut forbidden (token :: rest) = true) :
    (isDashed token = true → (spec.named token).isSome = true) ∧
      spec.spellsOut forbidden rest = true := by
  rw [CommandSpec.spellsOut, if_neg notEscape, Bool.and_eq_true,
    Bool.or_eq_true] at spelledOut
  refine ⟨?_, spelledOut.2⟩
  intro dashed
  rcases spelledOut.1 with notDashed | named
  · rw [dashed] at notDashed
    cases notDashed
  · exact named

/-- The grammar reads a vector that is spelled out as its occurrences. -/
theorem spelled_of_parse
    {arguments : List String} {occurrences : List (Occurrence Id)}
    (wellFormed : spec.IsWellFormed)
    (parsed : spec.parse arguments = some occurrences)
    (spelledOut : spec.spellsOut forbidden arguments = true) :
    Spelled spec forbidden arguments occurrences := by
  induction arguments using CommandSpec.parse.induct spec
    generalizing occurrences with
  | case1 =>
      cases parsed
      exact Spelled.nil
  | case2 rest =>
      rw [CommandSpec.parse, if_pos rfl] at parsed
      cases parsed
      rw [CommandSpec.spellsOut, if_pos rfl, List.all_eq_true]
        at spelledOut
      refine Spelled.escape ?_
      intro token member
      simpa using spelledOut token member
  | case3 token rest notEscape dashed unread =>
      rw [CommandSpec.parse, if_neg notEscape, if_pos dashed, unread]
        at parsed
      cases parsed
  | case4 token rest notEscape dashed read isRead inductionHypothesis =>
      obtain ⟨isNamed, restSpelled⟩ := spellsOut_tail notEscape spelledOut
      obtain ⟨option, named⟩ :=
        Option.isSome_iff_exists.mp (isNamed dashed)
      rw [CommandSpec.parse, if_neg notEscape, if_pos dashed, isRead]
        at parsed
      obtain ⟨later, parsedLater, rfl⟩ := Option.map_eq_some_iff.mp parsed
      rw [readToken_named wellFormed named] at isRead
      by_cases takes : option.takesValue = true
      · rw [if_pos takes] at isRead
        cases isRead
      · rw [if_neg takes] at isRead
        cases isRead
        exact
          Spelled.flag named (Bool.eq_false_iff.mpr takes)
            (inductionHypothesis parsedLater restSpelled)
  | case5 token notEscape dashed read pending isRead =>
      rw [CommandSpec.parse, if_neg notEscape, if_pos dashed, isRead]
        at parsed
      cases parsed
  | case6 token notEscape dashed read pending isRead value others
      valueDashed =>
      rw [CommandSpec.parse, if_neg notEscape, if_pos dashed, isRead]
        at parsed
      simp only [valueDashed, if_true] at parsed
      cases parsed
  | case7 token notEscape dashed read pending isRead value others
      valuePlain inductionHypothesis =>
      obtain ⟨isNamed, restSpelled⟩ := spellsOut_tail notEscape spelledOut
      obtain ⟨option, named⟩ :=
        Option.isSome_iff_exists.mp (isNamed dashed)
      have valuePlain : isDashed value = false :=
        Bool.eq_false_iff.mpr valuePlain
      have notEscapeValue : value ≠ "--" := by
        rintro rfl
        cases valuePlain
      rw [CommandSpec.parse, if_neg notEscape, if_pos dashed, isRead]
        at parsed
      simp only [valuePlain, Bool.false_eq_true, if_false] at parsed
      obtain ⟨later, parsedLater, rfl⟩ := Option.map_eq_some_iff.mp parsed
      rw [readToken_named wellFormed named] at isRead
      by_cases takes : option.takesValue = true
      · rw [if_pos takes] at isRead
        cases isRead
        exact
          Spelled.value named takes valuePlain
            (inductionHypothesis parsedLater
              (spellsOut_tail notEscapeValue restSpelled).2)
      · rw [if_neg takes] at isRead
        cases isRead
  | case8 token rest notEscape notDashed inductionHypothesis =>
      rw [CommandSpec.parse, if_neg notEscape, if_neg notDashed] at parsed
      obtain ⟨later, parsedLater, rfl⟩ := Option.map_eq_some_iff.mp parsed
      exact
        Spelled.positional (Bool.eq_false_iff.mpr notDashed)
          (inductionHypothesis parsedLater
            (spellsOut_tail notEscape spelledOut).2)

end Spelled

/-- An occurrence has a value when its option takes one, and the value does
not look like an option. -/
theorem Spelled.option_of_mem
    {Id : Type u} {spec : CommandSpec Id} {forbidden : List String}
    {arguments : List String} {occurrences : List (Occurrence Id)}
    (spelled : Spelled spec forbidden arguments occurrences)
    {id : Id} {value : Option String}
    (member : .option id value ∈ occurrences) :
    ∃ option ∈ spec.options,
      option.id = id ∧ option.takesValue = value.isSome ∧
        value.all (fun text => !isDashed text) = true := by
  induction spelled with
  | nil => cases member
  | positional _ _ inductionHypothesis =>
      rcases List.mem_cons.mp member with same | member
      · cases same
      · exact inductionHypothesis member
  | @flag token option _ _ named noValue _ inductionHypothesis =>
      rcases List.mem_cons.mp member with same | member
      · cases same
        exact
          ⟨option, List.mem_of_find?_eq_some named, rfl, noValue, rfl⟩
      · exact inductionHypothesis member
  | @value token text option _ _ named takesValue notDashed _
      inductionHypothesis =>
      rcases List.mem_cons.mp member with same | member
      · cases same
        refine
          ⟨option, List.mem_of_find?_eq_some named, rfl, takesValue, ?_⟩
        simpa using notDashed
      · exact inductionHypothesis member
  | escape _ =>
      obtain ⟨_, _, same⟩ := List.mem_map.mp member
      cases same

/-! ## The scan of a spelled vector -/

/-- What the scan does with an occurrence. -/
def Scanner.follow {State : Type u} {Known : Type v} {Error : Type w}
    {Id : Type u} (scanner : Scanner State Known Error)
    (translate : Id → Option Known) (state : State) :
    Occurrence Id → Except Error State
  | .positional _ => .ok state
  | .option id value =>
      match translate id, value with
      | some known, some value => scanner.assign state known value
      | some known, none => .ok (scanner.set state known)
      | none, _ => .ok state

/-- The tokens of the scanner are names of the grammar, with the same meaning,
and are forbidden behind `--`. -/
structure Scanner.Fits {State : Type u} {Known : Type v} {Error : Type w}
    {Id : Type u} (scanner : Scanner State Known Error)
    (spec : CommandSpec Id) (translate : Id → Option Known)
    (forbidden : List String) : Prop where
  dashed :
    ∀ entry ∈ scanner.known, isDashed entry.1 = true ∧ entry.1 ≠ "--"
  hidden : ∀ entry ∈ scanner.known, entry.1 ∈ forbidden
  translated :
    ∀ option ∈ spec.options, ∀ name ∈ option.names,
      scanner.known.lookup name = translate option.id
  takesValue :
    ∀ option ∈ spec.options, ∀ known,
      translate option.id = some known →
        scanner.takesValue known = option.takesValue

section Scan

variable {State : Type u} {Known : Type v} {Error : Type w} {Id : Type u}
  {scanner : Scanner State Known Error} {spec : CommandSpec Id}
  {translate : Id → Option Known} {forbidden : List String}

theorem Scanner.Fits.lookup_eq_none
    (fits : scanner.Fits spec translate forbidden) {token : String}
    (other :
      isDashed token = false ∨ token = "--" ∨ token ∉ forbidden) :
    scanner.known.lookup token = none := by
  rw [List.lookup_eq_none_iff]
  intro entry member
  have different : token ≠ entry.1 := by
    rintro rfl
    rcases other with notDashed | isEscape | notForbidden
    · rw [(fits.dashed entry member).1] at notDashed
      cases notDashed
    · exact (fits.dashed entry member).2 isEscape
    · exact notForbidden (fits.hidden entry member)
  simpa using different

theorem follow_unknown
    {id : Id} (unknown : translate id = none) (state : State)
    (value : Option String) :
    scanner.follow translate state (.option id value) = .ok state := by
  simp only [Scanner.follow, unknown]

theorem follow_flag
    {id : Id} {known : Known} (isKnown : translate id = some known)
    (state : State) :
    scanner.follow translate state (.option id none) =
      .ok (scanner.set state known) := by
  simp only [Scanner.follow, isKnown]

theorem follow_value
    {id : Id} {known : Known} (isKnown : translate id = some known)
    (state : State) (value : String) :
    scanner.follow translate state (.option id (some value)) =
      scanner.assign state known value := by
  simp only [Scanner.follow, isKnown]

/-- The scan of a spelled vector follows its occurrences. -/
theorem scan_spelled
    (fits : scanner.Fits spec translate forbidden)
    {arguments : List String} {occurrences : List (Occurrence Id)}
    (spelled : Spelled spec forbidden arguments occurrences)
    (state : State) :
    scanner.scan state arguments =
      occurrences.foldlM (scanner.follow translate) state := by
  have option_lookup {token : String} {option : OptionSpec Id}
      (named : spec.named token = some option) :
      option ∈ spec.options ∧
        scanner.known.lookup token = translate option.id := by
    obtain ⟨member, isName⟩ := mem_names_of_named named
    exact ⟨member, fits.translated option member token isName⟩
  induction spelled generalizing state with
  | nil => rfl
  | positional notDashed _ inductionHypothesis =>
      rw [Scanner.scan_unknown (fits.lookup_eq_none (.inl notDashed)),
        inductionHypothesis]
      rfl
  | @flag token option rest later named noValue _ inductionHypothesis =>
      obtain ⟨member, isLookup⟩ := option_lookup named
      cases known : translate option.id with
      | none =>
          rw [known] at isLookup
          rw [Scanner.scan_unknown isLookup, inductionHypothesis,
            List.foldlM_cons, follow_unknown known]
          rfl
      | some entry =>
          rw [known] at isLookup
          have takes := fits.takesValue option member entry known
          rw [noValue] at takes
          rw [Scanner.scan_flag isLookup takes, inductionHypothesis,
            List.foldlM_cons, follow_flag known]
          rfl
  | @value token value option rest later named takesValue notDashed _
      inductionHypothesis =>
      obtain ⟨member, isLookup⟩ := option_lookup named
      cases known : translate option.id with
      | none =>
          rw [known] at isLookup
          rw [Scanner.scan_unknown isLookup,
            Scanner.scan_unknown
              (fits.lookup_eq_none (.inl notDashed)),
            inductionHypothesis, List.foldlM_cons,
            follow_unknown known]
          rfl
      | some entry =>
          rw [known] at isLookup
          have takes := fits.takesValue option member entry known
          rw [takesValue] at takes
          rw [List.foldlM_cons, follow_value known]
          cases assigns : scanner.assign state entry value with
          | ok assigned =>
              rw [Scanner.scan_value isLookup takes assigns,
                inductionHypothesis]
              rfl
          | error error =>
              rw [Scanner.scan, isLookup]
              simp only [takes, if_true, assigns]
              rfl
  | @escape rest notForbidden =>
      have positionals (texts : List String) :
          (texts.map Occurrence.positional).foldlM
              (scanner.follow translate) state =
            Except.ok state := by
        induction texts with
        | nil => rfl
        | cons text others inductionHypothesis =>
            rw [List.map_cons, List.foldlM_cons]
            exact inductionHypothesis
      have passed :
          scanner.scan state (rest ++ []) = scanner.scan state [] :=
        Scanner.scan_unknowns
          (fun token member =>
            fits.lookup_eq_none (.inr (.inr (notForbidden token member))))
          []
      rw [List.append_nil, Scanner.scan] at passed
      rw [Scanner.scan_unknown (fits.lookup_eq_none (.inr (.inl rfl))),
        passed, positionals]

end Scan

/-! ## The fields of a spelled vector -/

section Fields

variable {Id : Type u} {spec : CommandSpec Id}
  {forbidden : List String} {arguments : List String}
  {occurrences : List (Occurrence Id)}

/-- A search for tokens finds the occurrences of the options that the tokens
are the names of. -/
theorem any_spelled
    {names : List String} {means : Id → Bool}
    (dashed : ∀ name ∈ names, isDashed name = true ∧ name ≠ "--")
    (hidden : ∀ name ∈ names, name ∈ forbidden)
    (translated :
      ∀ option ∈ spec.options, ∀ name ∈ option.names,
        names.contains name = means option.id)
    (spelled : Spelled spec forbidden arguments occurrences) :
    (arguments.any fun token => names.contains token) =
      occurrences.any fun occurrence => occurrence.id?.any means := by
  have plain {token : String} (notDashed : isDashed token = false) :
      names.contains token = false := by
    rw [Bool.eq_false_iff]
    intro contained
    rw [(dashed token (by simpa using contained)).1] at notDashed
    cases notDashed
  have named_contains {token : String} {option : OptionSpec Id}
      (named : spec.named token = some option) :
      names.contains token = means option.id := by
    obtain ⟨member, isName⟩ := mem_names_of_named named
    exact translated option member token isName
  induction spelled with
  | nil => rfl
  | positional notDashed _ inductionHypothesis =>
      rw [List.any_cons, List.any_cons, plain notDashed,
        inductionHypothesis]
      rfl
  | flag named _ _ inductionHypothesis =>
      rw [List.any_cons, List.any_cons, named_contains named,
        inductionHypothesis]
      rfl
  | value named _ notDashed _ inductionHypothesis =>
      rw [List.any_cons, List.any_cons, List.any_cons,
        named_contains named, plain notDashed, inductionHypothesis,
        Bool.false_or]
      rfl
  | @escape rest notForbidden =>
      have none :
          (("--" :: rest).any fun token => names.contains token) =
            false := by
        rw [List.any_eq_false]
        intro token member contained
        have isName : token ∈ names := by
          simpa using contained
        rcases List.mem_cons.mp member with rfl | member
        · exact (dashed _ isName).2 rfl
        · exact notForbidden token member (hidden token isName)
      rw [none, List.any_map]
      symm
      rw [List.any_eq_false]
      intro token _
      exact Bool.false_ne_true

/-- A fold over options that are given once reaches what each fresh occurrence
takes one step further. -/
theorem foldlM_fresh
    {State : Type v} {Error : Type w}
    {step : State → Occurrence Id → Except Error State} {start : State}
    {Allowed : Occurrence Id → Prop}
    (reached : List (Occurrence Id) → Except Error State)
    (starts : reached [] = .ok start)
    (steps :
      ∀ before last,
        (∀ id, last.id? = some id →
          id ∉ before.filterMap Occurrence.id?) →
          Allowed last →
            ((reached before).bind fun state => step state last) =
              reached (before ++ [last]))
    (nodup : (occurrences.filterMap Occurrence.id?).Nodup)
    (allowed : ∀ occurrence ∈ occurrences, Allowed occurrence) :
    occurrences.foldlM step start = reached occurrences := by
  induction occurrences using List.reverseRecOn with
  | nil =>
      rw [List.foldlM_nil, starts]
      rfl
  | append_singleton before last inductionHypothesis =>
      rw [List.filterMap_append, List.nodup_append] at nodup
      have isLast : last ∈ before ++ [last] :=
        List.mem_append_right _ (List.mem_singleton_self last)
      have fresh (id : Id) (isId : last.id? = some id) :
          id ∉ before.filterMap Occurrence.id? := by
        intro member
        refine nodup.2.2 id member id ?_ rfl
        exact List.mem_filterMap.mpr ⟨last, List.mem_singleton_self _, isId⟩
      have before_reached :=
        inductionHypothesis nodup.1 fun occurrence member =>
          allowed occurrence (List.mem_append_left _ member)
      rw [List.foldlM_append, before_reached,
        ← steps before last fresh (allowed last isLast)]
      cases reached before with
      | error error => rfl
      | ok state =>
          rw [Except.bind]
          exact bind_pure (step state last)

/-- What stands first and does not look like an option is the first
positional. -/
theorem Spelled.tail
    {token : String} (wellFormed : spec.IsWellFormed)
    (notDashed : isDashed token = false)
    (spelled :
      Spelled spec forbidden (token :: arguments) occurrences) :
    ∃ later,
      occurrences = .positional token :: later ∧
        Spelled spec forbidden arguments later := by
  cases spelled with
  | positional _ rest => exact ⟨_, rfl, rest⟩
  | flag named _ _ =>
      rw [(isDashed_named wellFormed named).1] at notDashed
      cases notDashed
  | value named _ _ _ =>
      rw [(isDashed_named wellFormed named).1] at notDashed
      cases notDashed
  | escape _ => cases notDashed

variable [DecidableEq Id]

/-- A search for the names of an option finds whether it is given. -/
theorem given_spelled
    {names : List String} {id : Id}
    (dashed : ∀ name ∈ names, isDashed name = true ∧ name ≠ "--")
    (hidden : ∀ name ∈ names, name ∈ forbidden)
    (translated :
      ∀ option ∈ spec.options, ∀ name ∈ option.names,
        names.contains name = decide (option.id = id))
    (spelled : Spelled spec forbidden arguments occurrences) :
    (arguments.any fun token => names.contains token) =
      CommandSpec.given occurrences id := by
  have found :
      (arguments.any fun token => names.contains token) =
        occurrences.any fun occurrence =>
          occurrence.id?.any fun other => decide (other = id) :=
    any_spelled dashed hidden translated spelled
  rw [found, CommandSpec.given]
  congr 1
  funext occurrence
  cases occurrence with
  | positional text => rfl
  | option other value => simp [Occurrence.id?]

/-- A scan for the value behind a name finds the value of the option that has
this name. -/
theorem optionValue_spelled
    {name : String} {id : Id}
    (dashed : isDashed name = true) (notEscape : name ≠ "--")
    (hidden : name ∈ forbidden)
    (translated :
      ∀ option ∈ spec.options, ∀ other ∈ option.names,
        (other = name ↔ option.id = id))
    (takesValue :
      ∀ option ∈ spec.options, option.id = id →
        option.takesValue = true)
    (spelled : Spelled spec forbidden arguments occurrences) :
    optionValue arguments name =
      CommandSpec.value? occurrences id := by
  have plain {token : String} (notDashed : isDashed token = false) :
      token ≠ name := by
    rintro rfl
    rw [dashed] at notDashed
    cases notDashed
  have named_eq {token : String} {option : OptionSpec Id}
      (named : spec.named token = some option) :
      option ∈ spec.options ∧ (token = name ↔ option.id = id) := by
    obtain ⟨member, isName⟩ := mem_names_of_named named
    exact ⟨member, translated option member token isName⟩
  induction spelled with
  | nil => rfl
  | positional notDashed _ inductionHypothesis =>
      rw [optionValue_cons (plain notDashed), inductionHypothesis]
      rfl
  | @flag token option _ _ named noValue _ inductionHypothesis =>
      obtain ⟨member, same⟩ := named_eq named
      have other : option.id ≠ id := by
        intro isId
        rw [takesValue option member isId] at noValue
        cases noValue
      rw [optionValue_cons (mt same.mp other), inductionHypothesis,
        CommandSpec.value?, CommandSpec.value?, List.findSome?_cons,
        Occurrence.valueOf, if_neg other]
  | @value token text option _ _ named _ notDashed _
      inductionHypothesis =>
      obtain ⟨_, same⟩ := named_eq named
      rw [CommandSpec.value?, List.findSome?_cons, Occurrence.valueOf]
      by_cases isId : option.id = id
      · obtain rfl := same.mpr isId
        rw [optionValue_name, if_pos isId]
      · rw [optionValue_cons (mt same.mp isId),
          optionValue_cons (plain notDashed), inductionHypothesis,
          if_neg isId]
        rfl
  | @escape rest notForbidden =>
      have absent : name ∉ "--" :: rest := by
        rw [List.mem_cons, not_or]
        refine ⟨notEscape, ?_⟩
        intro member
        exact notForbidden name member hidden
      rw [optionValue_eq_none absent]
      symm
      rw [CommandSpec.value?, List.findSome?_eq_none_iff]
      intro occurrence member
      obtain ⟨_, _, rfl⟩ := List.mem_map.mp member
      rfl

theorem given_append_singleton
    (occurrences : List (Occurrence Id)) (last : Occurrence Id)
    (id : Id) :
    CommandSpec.given (occurrences ++ [last]) id =
      (CommandSpec.given occurrences id || decide (last.id? = some id)) := by
  simp [CommandSpec.given]

theorem value?_append_singleton
    (occurrences : List (Occurrence Id)) (last : Occurrence Id)
    (id : Id) :
    CommandSpec.value? (occurrences ++ [last]) id =
      (CommandSpec.value? occurrences id).or (last.valueOf id) := by
  simp [CommandSpec.value?, List.findSome?_append]

/-- An option that no occurrence has is not given and has no value. -/
theorem fields_of_absent
    {id : Id} (absent : id ∉ occurrences.filterMap Occurrence.id?) :
    CommandSpec.given occurrences id = false ∧
      CommandSpec.value? occurrences id = none := by
  have notId {occurrence : Occurrence Id}
      (member : occurrence ∈ occurrences) :
      occurrence.id? ≠ some id := by
    intro isId
    exact absent (List.mem_filterMap.mpr ⟨occurrence, member, isId⟩)
  constructor
  · rw [CommandSpec.given, List.any_eq_false]
    intro occurrence member
    simpa using notId member
  · rw [CommandSpec.value?, List.findSome?_eq_none_iff]
    intro occurrence member
    cases occurrence with
    | positional text => rfl
    | option other value =>
        rw [Occurrence.valueOf, if_neg]
        rintro rfl
        exact notId member rfl

/-- Among options that are given once, each has its own value. -/
theorem value?_of_mem
    (nodup : (occurrences.filterMap Occurrence.id?).Nodup)
    {id : Id} {value : Option String}
    (member : .option id value ∈ occurrences) :
    CommandSpec.value? occurrences id = value := by
  obtain ⟨before, after, rfl⟩ := List.append_of_mem member
  have isId : (Occurrence.option id value).id? = some id := rfl
  rw [List.filterMap_append, List.filterMap_cons_some isId,
    List.nodup_append, List.nodup_cons] at nodup
  obtain ⟨_, ⟨notAfter, _⟩, disjoint⟩ := nodup
  have notBefore : id ∉ before.filterMap Occurrence.id? := by
    intro member
    exact disjoint id member id List.mem_cons_self rfl
  have fromBefore := (fields_of_absent notBefore).2
  have fromAfter := (fields_of_absent notAfter).2
  rw [CommandSpec.value?] at fromBefore fromAfter
  rw [CommandSpec.value?, List.findSome?_append, fromBefore,
    Option.none_or, List.findSome?_cons, Occurrence.valueOf,
    if_pos rfl, fromAfter]
  cases value <;> rfl

theorem mem_of_value?
    {id : Id} {value : String}
    (found : CommandSpec.value? occurrences id = some value) :
    .option id (some value) ∈ occurrences := by
  obtain ⟨occurrence, member, isValue⟩ :=
    List.exists_of_findSome?_eq_some found
  cases occurrence with
  | positional text => cases isValue
  | option other text =>
      rw [Occurrence.valueOf] at isValue
      by_cases same : other = id
      · rw [if_pos same] at isValue
        rw [← same, ← isValue]
        exact member
      · rw [if_neg same] at isValue
        cases isValue

theorem accept_eq_some
    (accepted : spec.accept arguments = some occurrences) :
    spec.parse arguments = some occurrences ∧ spec.Admits occurrences := by
  obtain ⟨parsed, admits⟩ := Option.filter_eq_some_iff.mp accepted
  exact ⟨parsed, of_decide_eq_true admits⟩

/-- An accepted value passes the check of its option. -/
theorem accepts_of_mem
    (accepted : spec.accept arguments = some occurrences)
    (spelled : Spelled spec forbidden arguments occurrences)
    {id : Id} {value : String}
    (member : .option id (some value) ∈ occurrences) :
    ∃ option ∈ spec.options,
      option.id = id ∧ option.takesValue = true ∧
        option.accepts value = true ∧ isDashed value = false := by
  obtain ⟨_, _, _, nodup, accepts, _⟩ := accept_eq_some accepted
  obtain ⟨option, isOption, isId, takesValue, notDashed⟩ :=
    spelled.option_of_mem member
  have passes := accepts option isOption
  rw [isId, value?_of_mem nodup member] at passes
  exact
    ⟨option, isOption, isId, takesValue, passes, by simpa using notDashed⟩

/-- An option that the command does not have is not given. -/
theorem fields_of_foreign
    (spelled : Spelled spec forbidden arguments occurrences) {id : Id}
    (foreign : ∀ option ∈ spec.options, option.id ≠ id) :
    CommandSpec.given occurrences id = false ∧
      CommandSpec.value? occurrences id = none := by
  apply fields_of_absent
  intro present
  obtain ⟨occurrence, member, isId⟩ := List.mem_filterMap.mp present
  cases occurrence with
  | positional text => cases isId
  | option other value =>
      cases isId
      obtain ⟨option, isOption, same, _⟩ := spelled.option_of_mem member
      exact foreign option isOption same

end Fields

end Quiczilla.Foundation
