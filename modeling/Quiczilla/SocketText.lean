import Mathlib.Tactic.IntervalCases
import Quiczilla.Foundation.Text
import Quiczilla.Stun

/-!
# Socket addresses as text

The texts that the standard library prints for IP addresses, and the parser
behind `SocketAddr::from_str`.  The parser reads bytes; none of those it
accepts is outside ASCII.
-/

namespace Quiczilla

open Foundation

/-! ## Printing -/

def decimal (value : Nat) : List Char :=
  Nat.toDigits 10 value

/-- `{:x}`. -/
def lowerHex (value : Nat) : List Char :=
  Nat.toDigits 16 value

def dotted (octets : Vector UInt8 4) : List Char :=
  decimal octets[0].toNat ++ '.' :: (decimal octets[1].toNat ++
    '.' :: (decimal octets[2].toNat ++ '.' :: decimal octets[3].toNat))

/-- `Ipv6Addr::segments`. -/
def ipv6Segments (octets : Vector UInt8 16) : List Nat :=
  List.ofFn fun index : Fin 8 =>
    octets[2 * index.val].toNat * 256 + octets[2 * index.val + 1].toNat

structure ZeroSpan where
  start : Nat
  len : Nat
  deriving DecidableEq, Repr

/-- The longest span of zeros, and the first of these. -/
def longestZeros (index : Nat) (longest current : ZeroSpan) :
    List Nat → ZeroSpan
  | [] => longest
  | segment :: rest =>
      if segment = 0 then
        let grown : ZeroSpan :=
          ⟨if current.len = 0 then index else current.start,
            current.len + 1⟩
        longestZeros (index + 1)
          (if longest.len < grown.len then grown else longest) grown rest
      else longestZeros (index + 1) longest ⟨0, 0⟩ rest

/-- `fmt_subslice`. -/
def subslice (chunk : List Nat) : List Char :=
  List.intercalate [':'] (chunk.map lowerHex)

/-- `Ipv6Addr::to_ipv4_mapped`. -/
def toIpv4Mapped (octets : Vector UInt8 16) : Option (Vector UInt8 4) :=
  if (ipv6Segments octets).take 6 = [0, 0, 0, 0, 0, 0xffff] then
    some #v[octets[12], octets[13], octets[14], octets[15]]
  else none

def colonText (octets : Vector UInt8 16) : List Char :=
  match toIpv4Mapped octets with
  | some ipv4 => [':', ':', 'f', 'f', 'f', 'f', ':'] ++ dotted ipv4
  | none =>
      let parts := ipv6Segments octets
      let zeroes := longestZeros 0 ⟨0, 0⟩ ⟨0, 0⟩ parts
      if 1 < zeroes.len then
        subslice (parts.take zeroes.start) ++ [':', ':'] ++
          subslice (parts.drop (zeroes.start + zeroes.len))
      else subslice parts

/-- `IpAddr::to_string`. -/
def IpAddress.text : IpAddress → String
  | .v4 octets => String.ofList (dotted octets)
  | .v6 octets => String.ofList (colonText octets)

/-! ## Parsing -/

/-- `char::to_digit`, for a radix of at most 16. -/
def toDigit (radix : Nat) (character : Char) : Option Nat :=
  (hexDigitValue character).filter fun value => value < radix

/-- The digits at the front of the text, and what follows them. -/
def spanDigits (radix : Nat) : List Char → List Nat × List Char
  | [] => ([], [])
  | character :: rest =>
      match toDigit radix character with
      | some digit =>
          (digit :: (spanDigits radix rest).1, (spanDigits radix rest).2)
      | none => ([], character :: rest)

def readNumber
    (radix : Nat) (maxDigits : Option Nat) (allowZeroPrefix : Bool)
    (bound : Nat) (text : List Char) : Option (Nat × List Char) :=
  let digits := (spanDigits radix text).1
  let value := digits.foldl (fun value digit => radix * value + digit) 0
  if (maxDigits.any fun most => most < digits.length) then none
  else if digits = [] then none
  else if allowZeroPrefix = false ∧ text.head? = some '0' ∧
      1 < digits.length then none
  else if value < bound then some (value, (spanDigits radix text).2)
  else none

def readGivenChar (given : Char) : List Char → Option (List Char)
  | [] => none
  | character :: rest => if character = given then some rest else none

def readSeparator {Value : Type}
    (separator : Char) (index : Nat)
    (inner : List Char → Option (Value × List Char))
    (text : List Char) : Option (Value × List Char) :=
  if 0 < index then (readGivenChar separator text).bind inner
  else inner text

def readOctet (text : List Char) : Option (Nat × List Char) :=
  readNumber 10 (some 3) false 256 text

def readIpv4Addr (text : List Char) :
    Option (Vector UInt8 4 × List Char) := do
  let (first, text) ← readSeparator '.' 0 readOctet text
  let (second, text) ← readSeparator '.' 1 readOctet text
  let (third, text) ← readSeparator '.' 2 readOctet text
  let (fourth, text) ← readSeparator '.' 3 readOctet text
  some
    (#v[UInt8.ofNat first, UInt8.ofNat second, UInt8.ofNat third,
      UInt8.ofNat fourth], text)

structure ReadGroups where
  groups : List Nat
  endsInIpv4 : Bool
  rest : List Char

/-- `read_groups` with so many slots left. -/
def readGroups : Nat → Nat → List Char → ReadGroups
  | 0, _, text => ⟨[], false, text⟩
  | slots + 1, index, text =>
      -- an embedded IPv4 address takes two slots
      let embedded :=
        if 0 < slots then readSeparator ':' index readIpv4Addr text
        else none
      match embedded with
      | some (octets, rest) =>
          ⟨[octets[0].toNat * 256 + octets[1].toNat,
            octets[2].toNat * 256 + octets[3].toNat], true, rest⟩
      | none =>
          match readSeparator ':' index
              (readNumber 16 (some 4) true 65536) text with
          | some (group, rest) =>
              let later := readGroups slots (index + 1) rest
              ⟨group :: later.groups, later.endsInIpv4, later.rest⟩
          | none => ⟨[], false, text⟩

def octetsOf (groups : List Nat) : Vector UInt8 16 :=
  Vector.ofFn fun index =>
    let group := groups.getD (index.val / 2) 0
    UInt8.ofNat (if index.val % 2 = 0 then group / 256 else group)

def readIpv6Addr (text : List Char) :
    Option (Vector UInt8 16 × List Char) :=
  let head := readGroups 8 0 text
  if head.groups.length = 8 then some (octetsOf head.groups, head.rest)
  else if head.endsInIpv4 then none
  else do
    let rest ← readGivenChar ':' head.rest
    let rest ← readGivenChar ':' rest
    let tail := readGroups (7 - head.groups.length) 0 rest
    some
      (octetsOf
        (head.groups ++
          List.replicate (8 - head.groups.length - tail.groups.length) 0 ++
          tail.groups), tail.rest)

def readPort (text : List Char) : Option (Nat × List Char) :=
  (readGivenChar ':' text).bind (readNumber 10 none true 65536)

def readScopeId (text : List Char) : Option (Nat × List Char) :=
  (readGivenChar '%' text).bind (readNumber 10 none true (2 ^ 32))

/-- A socket address with the scope of an IPv6 address, which is 0 unless the
text gives one. -/
structure ScopedAddress where
  address : SocketAddress
  scopeId : UInt32
  deriving DecidableEq, Repr

def readSocketAddrV4 (text : List Char) :
    Option (ScopedAddress × List Char) := do
  let (octets, text) ← readIpv4Addr text
  let (port, text) ← readPort text
  some (⟨⟨.v4 octets, UInt16.ofNat port⟩, 0⟩, text)

def readSocketAddrV6 (text : List Char) :
    Option (ScopedAddress × List Char) := do
  let text ← readGivenChar '[' text
  let (octets, text) ← readIpv6Addr text
  let (scopeId, text) := (readScopeId text).getD (0, text)
  let text ← readGivenChar ']' text
  let (port, text) ← readPort text
  some (⟨⟨.v6 octets, UInt16.ofNat port⟩, UInt32.ofNat scopeId⟩, text)

/-- `SocketAddr::from_str`. -/
def parseSocketAddr (text : String) : Option ScopedAddress :=
  match readSocketAddrV4 text.toList <|> readSocketAddrV6 text.toList with
  | some (address, []) => some address
  | _ => none

/-! ## Reading what was printed -/

theorem toDigit_decimal
    {digit : Char} (isDigit : digit.isDigit = true) :
    toDigit 10 digit = some (digit.toNat - 48) := by
  have bound : digit.toNat ≤ 57 := by
    have both :
        (decide (48 ≤ digit.val) && decide (digit.val ≤ 57)) = true :=
      isDigit
    rw [Bool.and_eq_true, decide_eq_true_eq, decide_eq_true_eq] at both
    exact both.2
  have small : digit.toNat - 48 < 10 := by omega
  simp [toDigit, hexDigitValue, isDigit, small]

theorem isDigit_of_mem_decimal
    {value : Nat} {digit : Char} (member : digit ∈ decimal value) :
    digit.isDigit = true := by
  exact Nat.isDigit_of_mem_toDigits (by decide) (by decide) member

/-- The reader takes the digits and stops behind them. -/
theorem spanDigits_append
    {digits rest : List Char}
    (areDigits : ∀ digit ∈ digits, digit.isDigit = true)
    (stops : ∀ next ∈ rest.head?, toDigit 10 next = none) :
    spanDigits 10 (digits ++ rest) =
      (digits.map fun digit => digit.toNat - 48, rest) := by
  induction digits with
  | nil =>
      cases rest with
      | nil => rfl
      | cons next others =>
          have noDigit := stops next rfl
          simp [spanDigits, noDigit]
  | cons digit others inductionHypothesis =>
      have isDigit := areDigits digit List.mem_cons_self
      have later :=
        inductionHypothesis fun other member =>
          areDigits other (List.mem_cons_of_mem _ member)
      simp [spanDigits, toDigit_decimal isDigit, later]

/-- Only zero is printed with a zero in front. -/
theorem decimal_leadingZero
    {value : Nat} (leads : (decimal value).head? = some '0') :
    value = 0 := by
  induction value using Nat.strong_induction_on with
  | _ value inductionHypothesis =>
      by_cases small : value < 10
      · have isDigit : decimal value = [value.digitChar] :=
          Nat.toDigits_of_lt_base small
        rw [isDigit, List.head?_cons, Option.some.injEq] at leads
        have onlyZero :
            ∀ digit : Fin 10, Nat.digitChar digit = '0' → digit = 0 := by
          decide
        exact congrArg Fin.val (onlyZero ⟨value, small⟩ leads)
      · have large : 10 ≤ value := Nat.not_lt.mp small
        have split :
            decimal value = decimal (value / 10) ++
              [(value % 10).digitChar] :=
          Nat.toDigits_of_base_le (by decide) large
        have notEmpty : decimal (value / 10) ≠ [] := Nat.toDigits_ne_nil
        rw [split, List.head?_append_of_ne_nil _ notEmpty] at leads
        have isZero :=
          inductionHypothesis (value / 10) (by omega) leads
        omega

/-- A number is read back up to the first character that is no digit. -/
theorem readNumber_decimal
    {maxDigits : Option Nat} {allowZeroPrefix : Bool}
    {bound value : Nat} {rest : List Char}
    (short : ∀ most ∈ maxDigits, (decimal value).length ≤ most)
    (inRange : value < bound)
    (stops : ∀ next ∈ rest.head?, toDigit 10 next = none) :
    readNumber 10 maxDigits allowZeroPrefix bound
        (decimal value ++ rest) = some (value, rest) := by
  have spanned :=
    spanDigits_append
      (fun digit (member : digit ∈ decimal value) =>
        isDigit_of_mem_decimal member) stops
  have notEmpty : decimal value ≠ [] := Nat.toDigits_ne_nil
  have isValue :
      ((decimal value).map fun digit => digit.toNat - 48).foldl
          (fun value digit => 10 * value + digit) 0 = value := by
    rw [List.foldl_map]
    exact Nat.ofDigitChars_ten_toDigits
  have notLong :
      (maxDigits.any fun most => most < (decimal value).length) =
        false := by
    cases maxDigits with
    | none => rfl
    | some most => simpa using short most rfl
  have noPrefix :
      ¬ (allowZeroPrefix = false ∧
        (decimal value ++ rest).head? = some '0' ∧
          1 < (decimal value).length) := by
    rintro ⟨-, leads, long⟩
    rw [List.head?_append_of_ne_nil _ notEmpty] at leads
    rw [decimal_leadingZero leads] at long
    exact absurd long (by decide)
  have someDigits :
      ((decimal value).map fun digit => digit.toNat - 48) ≠ [] := by
    simpa using notEmpty
  simp only [readNumber, spanned, List.length_map, notLong, someDigits,
    noPrefix, isValue, inRange, Bool.false_eq_true, if_false, if_true]

theorem readOctet_decimal
    (octet : UInt8) {rest : List Char}
    (stops : ∀ next ∈ rest.head?, toDigit 10 next = none) :
    readOctet (decimal octet.toNat ++ rest) =
      some (octet.toNat, rest) := by
  refine readNumber_decimal ?_ octet.toNat_lt stops
  intro most isMost
  cases isMost
  refine (Nat.length_toDigits_le_iff (by decide) (by decide)).mpr ?_
  have small := octet.toNat_lt
  omega

theorem readIpv4Addr_dotted
    (octets : Vector UInt8 4) {rest : List Char}
    (stops : ∀ next ∈ rest.head?, toDigit 10 next = none) :
    readIpv4Addr (dotted octets ++ rest) = some (octets, rest) := by
  have dotStops (others : List Char) :
      ∀ next ∈ ('.' :: others).head?, toDigit 10 next = none := by
    intro next isNext
    cases isNext
    decide
  have isVector :
      #v[octets[0], octets[1], octets[2], octets[3]] = octets := by
    ext index bound
    interval_cases index <;> simp
  simp [readIpv4Addr, dotted, readSeparator, readGivenChar,
    readOctet_decimal _ (dotStops _), readOctet_decimal _ stops,
    isVector]

/-- `format!("{}:{}", ip, port)`, as the worker joins them. -/
def joinPort (ip : String) (port : Nat) : String :=
  ip ++ ":" ++ toString port

theorem joinPort_toList (ip : String) (port : Nat) :
    (joinPort ip port).toList = ip.toList ++ ':' :: decimal port := by
  simp [joinPort, decimal]

theorem readPort_decimal (port : UInt16) :
    readPort (':' :: decimal port.toNat) = some (port.toNat, []) := by
  have wholeText : decimal port.toNat = decimal port.toNat ++ [] := by
    rw [List.append_nil]
  simp only [readPort, readGivenChar, if_true, Option.bind_some]
  rw [wholeText]
  refine readNumber_decimal ?_ port.toNat_lt ?_
  · intro most isMost
    cases isMost
  · intro next isNext
    cases isNext

/-- An IPv4 address and a port are parsed to themselves. -/
theorem parseSocketAddr_v4 (octets : Vector UInt8 4) (port : UInt16) :
    parseSocketAddr (joinPort (IpAddress.text (.v4 octets)) port.toNat) =
      some ⟨⟨.v4 octets, port⟩, 0⟩ := by
  have colonStops :
      ∀ next ∈ (':' :: decimal port.toNat).head?,
        toDigit 10 next = none := by
    intro next isNext
    cases isNext
    decide
  rw [parseSocketAddr, joinPort_toList, IpAddress.text,
    String.toList_ofList]
  simp [readSocketAddrV4, readIpv4Addr_dotted octets colonStops,
    readPort_decimal]

/-! ## An IPv6 address without brackets -/

/-- A text with a colon, and nothing before it but hexadecimal digits. -/
def ColonFirst (text : List Char) : Prop :=
  ∃ digits rest, (∀ digit ∈ digits, isAsciiHexdigit digit = true) ∧
    text = digits ++ ':' :: rest

theorem ColonFirst.append
    {text : List Char} (colonFirst : ColonFirst text)
    (more : List Char) : ColonFirst (text ++ more) := by
  obtain ⟨digits, rest, areDigits, isText⟩ := colonFirst
  refine ⟨digits, rest ++ more, areDigits, ?_⟩
  rw [isText, List.append_assoc, List.cons_append]

theorem head_ne_of_colonFirst
    {text : List Char} (colonFirst : ColonFirst text)
    {other : Char} (notDigit : isAsciiHexdigit other = false)
    (notColon : other ≠ ':') : text.head? ≠ some other := by
  obtain ⟨digits, rest, areDigits, isText⟩ := colonFirst
  rw [isText]
  cases digits with
  | nil => simpa using Ne.symm notColon
  | cons digit others =>
      intro isOther
      have same : digit = other := by simpa using isOther
      have isDigit := areDigits digit List.mem_cons_self
      rw [same, notDigit] at isDigit
      cases isDigit

/-- What is left behind decimal digits begins like the text itself. -/
theorem spanDigits_colonFirst
    {text : List Char} (colonFirst : ColonFirst text) :
    ColonFirst (spanDigits 10 text).2 := by
  obtain ⟨digits, rest, areDigits, isText⟩ := colonFirst
  subst isText
  induction digits with
  | nil =>
      have noDigit : toDigit 10 ':' = none := by decide
      refine ⟨[], rest, by simp, ?_⟩
      simp [spanDigits, noDigit]
  | cons digit others inductionHypothesis =>
      have areOthers :
          ∀ other ∈ others, isAsciiHexdigit other = true := by
        intro other member
        exact areDigits other (List.mem_cons_of_mem _ member)
      rw [List.cons_append, spanDigits]
      split
      · exact inductionHypothesis areOthers
      · exact ⟨digit :: others, rest, areDigits, rfl⟩

theorem readOctet_rest
    {text rest : List Char} {value : Nat}
    (reads : readOctet text = some (value, rest)) :
    rest = (spanDigits 10 text).2 := by
  simp only [readOctet, readNumber] at reads
  split_ifs at reads
  simp only [Option.some.injEq, Prod.mk.injEq] at reads
  exact reads.2.symm

/-- The second octet would stand behind a dot. -/
theorem readIpv4Addr_colonFirst
    {text : List Char} (colonFirst : ColonFirst text) :
    readIpv4Addr text = none := by
  cases reads : readOctet text with
  | none => simp [readIpv4Addr, readSeparator, reads]
  | some taken =>
      obtain ⟨first, rest⟩ := taken
      have noDot : readGivenChar '.' rest = none := by
        have notDot : rest.head? ≠ some '.' := by
          rw [readOctet_rest reads]
          exact
            head_ne_of_colonFirst (spanDigits_colonFirst colonFirst)
              (by decide) (by decide)
        cases rest with
        | nil => rfl
        | cons next others =>
            have other : next ≠ '.' := by simpa using notDot
            rw [readGivenChar, if_neg other]
      simp [readIpv4Addr, readSeparator, reads, noDot]

/-- Such a text is no socket address: neither a dotted one nor one in
brackets. -/
theorem parseSocketAddr_colonFirst
    {text : String} (colonFirst : ColonFirst text.toList) :
    parseSocketAddr text = none := by
  have noIpv4 : readSocketAddrV4 text.toList = none := by
    simp [readSocketAddrV4, readIpv4Addr_colonFirst colonFirst]
  have noBracket : readGivenChar '[' text.toList = none := by
    have notBracket :=
      head_ne_of_colonFirst colonFirst
        (show isAsciiHexdigit '[' = false by decide) (by decide)
    cases isText : text.toList with
    | nil => rfl
    | cons next others =>
        rw [isText] at notBracket
        have other : next ≠ '[' := by simpa using notBracket
        rw [readGivenChar, if_neg other]
  simp [parseSocketAddr, noIpv4, readSocketAddrV6, noBracket]

theorem isAsciiHexdigit_of_mem_lowerHex
    {value : Nat} {digit : Char} (member : digit ∈ lowerHex value) :
    isAsciiHexdigit digit = true := by
  induction value using Nat.strong_induction_on with
  | _ value inductionHypothesis =>
      have digits :
          ∀ digit : Fin 16, isAsciiHexdigit (Nat.digitChar digit) =
            true := by
        decide
      by_cases small : value < 16
      · have isDigit : lowerHex value = [value.digitChar] :=
          Nat.toDigits_of_lt_base small
        rw [isDigit, List.mem_singleton] at member
        rw [member]
        exact digits ⟨value, small⟩
      · have split :
            lowerHex value = lowerHex (value / 16) ++
              [(value % 16).digitChar] :=
          Nat.toDigits_of_base_le (by decide) (Nat.not_lt.mp small)
        rw [split, List.mem_append, List.mem_singleton] at member
        obtain earlier | isLast := member
        · exact inductionHypothesis (value / 16) (by omega) earlier
        · rw [isLast]
          exact digits ⟨value % 16, Nat.mod_lt _ (by decide)⟩

/-- The first group of a chunk stands before a colon, if another group
follows. -/
theorem subslice_colonFirst
    (first second : Nat) (others : List Nat) :
    ColonFirst (subslice (first :: second :: others)) := by
  refine
    ⟨lowerHex first, subslice (second :: others),
      fun digit member => isAsciiHexdigit_of_mem_lowerHex member, ?_⟩
  simp [subslice, List.intercalate]

theorem ColonFirst.of_colon (rest : List Char) :
    ColonFirst (':' :: rest) := by
  exact ⟨[], rest, by simp, rfl⟩

/-- Every text of an IPv6 address begins so. -/
theorem colonText_colonFirst (octets : Vector UInt8 16) :
    ColonFirst (colonText octets) := by
  unfold colonText
  cases toIpv4Mapped octets with
  | some ipv4 => exact ColonFirst.of_colon _
  | none =>
      dsimp only
      split
      · -- what stands before the two colons is empty, one group or more
        generalize (ipv6Segments octets).take _ = before
        generalize subslice ((ipv6Segments octets).drop _) = behind
        rcases before with _ | ⟨first, _ | ⟨second, others⟩⟩
        · exact ColonFirst.of_colon _
        · refine
            ⟨lowerHex first, ':' :: behind,
              fun digit member =>
                isAsciiHexdigit_of_mem_lowerHex member, ?_⟩
          simp [subslice]
        · rw [List.append_assoc]
          exact (subslice_colonFirst first second others).append _
      · have eight : ∃ first second others,
            ipv6Segments octets = first :: second :: others :=
          ⟨_, _, _, List.ofFn_succ.trans
            (congrArg _ List.ofFn_succ)⟩
        obtain ⟨first, second, others, areSegments⟩ := eight
        rw [areSegments]
        exact subslice_colonFirst first second others

/-- An IPv6 address that is joined with a port is not parsed. -/
theorem parseSocketAddr_v6 (octets : Vector UInt8 16) (port : Nat) :
    parseSocketAddr (joinPort (IpAddress.text (.v6 octets)) port) =
      none := by
  apply parseSocketAddr_colonFirst
  rw [joinPort_toList, IpAddress.text, String.toList_ofList]
  exact (colonText_colonFirst octets).append _

end Quiczilla
