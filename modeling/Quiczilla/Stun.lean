import Quiczilla.Foundation.BigEndian

/-!
# STUN binding responses

`parse_binding_response` walks over the attributes of a datagram until it finds
an XOR-MAPPED-ADDRESS that it can read.  Sizes and offsets are natural numbers:
the largest is below 20 + 4 * 65536.  An index out of range is a panic and
yields `none`.
-/

namespace Quiczilla

open Foundation

def magicCookie : Nat := 0x2112a442

def bindingSuccess : Nat := 0x0101

def xorMappedAddress : Nat := 0x0020

inductive IpAddress where
  | v4 (octets : Vector UInt8 4)
  | v6 (octets : Vector UInt8 16)
  deriving DecidableEq, Repr

structure SocketAddress where
  ip : IpAddress
  port : UInt16
  deriving DecidableEq, Repr

/-- `message[start..start + length]`. -/
def bytesAt? (message : List UInt8) (start length : Nat) :
    Option (Vector UInt8 length) :=
  if fits : start + length ≤ message.length then
    some
      ⟨((message.drop start).take length).toArray, by
        rw [List.size_toArray, List.length_take, List.length_drop]
        omega⟩
  else none

/-- `u16::from_be_bytes` of two bytes of the message. -/
def u16At? (message : List UInt8) (start : Nat) : Option Nat :=
  (bytesAt? message start 2).map fun bytes => ofBigEndian bytes.toList

def xorBytes {length : Nat} (bytes mask : Vector UInt8 length) :
    Vector UInt8 length :=
  Vector.zipWith (· ^^^ ·) bytes mask

/-- `MAGIC_COOKIE.to_be_bytes()`. -/
def cookieBytes : Vector UInt8 4 :=
  ⟨(toBigEndian 4 magicCookie).toArray, by
    rw [List.size_toArray, length_toBigEndian]⟩

/-- What an IPv6 address is masked with. -/
def addressMask (transactionId : Vector UInt8 12) : Vector UInt8 16 :=
  cookieBytes ++ transactionId

def portMask : UInt16 := UInt16.ofNat (magicCookie >>> 16)

/-- `(4 - length % 4) % 4`. -/
def padding (length : Nat) : Nat := (4 - length % 4) % 4

/-- What one turn of the loop makes of the attribute. -/
inductive AttributeRead where
  | truncated
  | passedOver (length : Nat)
  | found (address : SocketAddress)
  deriving DecidableEq, Repr

/-- An XOR-MAPPED-ADDRESS whose value begins at `valueStart`. -/
def readMappedAddress
    (message : List UInt8) (transactionId : Vector UInt8 12)
    (valueStart length : Nat) : Option AttributeRead := do
  let reservedAndFamily ← bytesAt? message valueStart 2
  let maskedPort ← u16At? message (valueStart + 2)
  let port := UInt16.ofNat maskedPort ^^^ portMask
  if reservedAndFamily[1] = 0x01 ∧ 8 ≤ length then
    let octets ← bytesAt? message (valueStart + 4) 4
    some (.found ⟨.v4 (xorBytes octets cookieBytes), port⟩)
  else if reservedAndFamily[1] = 0x02 ∧ 20 ≤ length then
    let octets ← bytesAt? message (valueStart + 4) 16
    some
      (.found ⟨.v6 (xorBytes octets (addressMask transactionId)), port⟩)
  else some (.passedOver length)

/-- The body of the loop. -/
def readAttribute
    (message : List UInt8) (transactionId : Vector UInt8 12)
    (offset : Nat) : Option AttributeRead := do
  let kind ← u16At? message offset
  let length ← u16At? message (offset + 2)
  if message.length < offset + 4 + length then some .truncated
  else if kind = xorMappedAddress ∧ 8 ≤ length then
    readMappedAddress message transactionId (offset + 4) length
  else some (.passedOver length)

/-- Where the attribute behind one of the given length begins. -/
def nextAttribute (offset length : Nat) : Nat :=
  offset + 4 + length + padding length

def attributeLoop
    (message : List UInt8) (transactionId : Vector UInt8 12)
    (declaredEnd offset : Nat) : Option (Except String SocketAddress) :=
  if offset + 4 ≤ declaredEnd then
    match readAttribute message transactionId offset with
    | none => none
    | some .truncated => some (.error "Truncated STUN attribute")
    | some (.found address) => some (.ok address)
    | some (.passedOver length) =>
        attributeLoop message transactionId declaredEnd
          (nextAttribute offset length)
  else some (.error "STUN response did not include XOR-MAPPED-ADDRESS")
termination_by declaredEnd - offset
decreasing_by
  unfold nextAttribute
  omega

def parseBindingResponse
    (message : List UInt8) (transactionId : Vector UInt8 12) :
    Option (Except String SocketAddress) :=
  if message.length < 20 then
    some (.error "Invalid STUN binding response")
  else do
    let kind ← u16At? message 0
    if kind ≠ bindingSuccess then
      some (.error "Invalid STUN binding response")
    else
      let cookie ← bytesAt? message 4 4
      let echoed ← bytesAt? message 8 12
      if cookie ≠ cookieBytes ∨ echoed ≠ transactionId then
        some (.error "STUN response transaction did not match request")
      else
        let declaredLen ← u16At? message 2
        if message.length < 20 + declaredLen then
          some (.error "Truncated STUN binding response")
        else
          attributeLoop message transactionId (20 + declaredLen) 20

/-! ## Reading what was written -/

theorem bytesAt?_append
    (before after : List UInt8) {middle : List UInt8}
    {length start : Nat} (bytes : Vector UInt8 length)
    (isMiddle : middle = bytes.toList)
    (isStart : start = before.length) :
    bytesAt? (before ++ (middle ++ after)) start length = some bytes := by
  have size : middle.length = length := by
    rw [isMiddle, Vector.length_toList]
  have fits : start + length ≤ (before ++ (middle ++ after)).length := by
    rw [List.length_append, List.length_append, size]
    omega
  have read :
      ((before ++ (middle ++ after)).drop start).take length =
        bytes.toList := by
    rw [isStart, List.drop_left, List.take_left' size, isMiddle]
  rw [bytesAt?, dif_pos fits, Option.some.injEq, ← Vector.toList_inj]
  simpa using read

theorem u16At?_append
    (before after : List UInt8) {start value : Nat}
    (fits : value < 65536) (isStart : start = before.length) :
    u16At? (before ++ (toBigEndian 2 value ++ after)) start =
      some value := by
  have size : (toBigEndian 2 value).toArray.size = 2 := by
    rw [List.size_toArray, length_toBigEndian]
  have isMiddle :
      toBigEndian 2 value =
        (Vector.mk (toBigEndian 2 value).toArray size).toList := rfl
  rw [u16At?, bytesAt?_append before after _ isMiddle isStart,
    Option.map_some]
  exact congrArg some (ofBigEndian_toBigEndian_of_lt fits)

theorem xorBytes_cancel
    {length : Nat} (bytes mask : Vector UInt8 length) :
    xorBytes (xorBytes bytes mask) mask = bytes := by
  apply Vector.ext
  intro index inside
  rw [xorBytes, xorBytes, Vector.getElem_zipWith, Vector.getElem_zipWith,
    UInt8.xor_assoc, UInt8.xor_self, UInt8.xor_zero]

theorem xorPort_cancel (port mask : UInt16) :
    port ^^^ mask ^^^ mask = port := by
  rw [UInt16.xor_assoc, UInt16.xor_self, UInt16.xor_zero]

/-! ## What a server sends -/

/-- An attribute with what pads its value to four bytes. -/
structure StunAttribute where
  kind : UInt16
  value : List UInt8
  filler : List UInt8
  padded : filler.length = padding value.length

def StunAttribute.bytes (entry : StunAttribute) : List UInt8 :=
  toBigEndian 2 entry.kind.toNat ++
    (toBigEndian 2 entry.value.length ++
      (entry.value ++ entry.filler))

/-- How long the value of a known address family is. -/
def familyLength (family : UInt8) : Option Nat :=
  if family = 0x01 then some 8
  else if family = 0x02 then some 20
  else none

/-- The attribute is no XOR-MAPPED-ADDRESS, or one of an unknown family, or one
that is too short for its family. -/
def StunAttribute.PassedOver (entry : StunAttribute) : Prop :=
  entry.kind.toNat = xorMappedAddress →
    ∀ needed, familyLength (entry.value.getD 1 0) = some needed →
      entry.value.length < needed

def IpAddress.family : IpAddress → UInt8
  | .v4 _ => 0x01
  | .v6 _ => 0x02

/-- The address under the mask of its family. -/
def IpAddress.masked (transactionId : Vector UInt8 12) :
    IpAddress → List UInt8
  | .v4 octets => (xorBytes octets cookieBytes).toList
  | .v6 octets => (xorBytes octets (addressMask transactionId)).toList

theorem length_masked
    (transactionId : Vector UInt8 12) (ip : IpAddress) :
    familyLength ip.family =
      some (4 + (ip.masked transactionId).length) := by
  cases ip with
  | v4 octets => simp [IpAddress.family, IpAddress.masked, familyLength]
  | v6 octets => simp [IpAddress.family, IpAddress.masked, familyLength]

/-- The value of the XOR-MAPPED-ADDRESS for an address. -/
def SocketAddress.value
    (transactionId : Vector UInt8 12) (reserved : UInt8)
    (address : SocketAddress) : List UInt8 :=
  [reserved, address.ip.family] ++
    (toBigEndian 2 (address.port ^^^ portMask).toNat ++
      address.ip.masked transactionId)

theorem length_value
    (transactionId : Vector UInt8 12) (reserved : UInt8)
    (address : SocketAddress) :
    familyLength address.ip.family =
      some (address.value transactionId reserved).length := by
  rw [length_masked transactionId, SocketAddress.value,
    List.length_append, List.length_append, length_toBigEndian,
    Option.some.injEq]
  simp only [List.length_cons, List.length_nil]
  omega

theorem padding_value
    (transactionId : Vector UInt8 12) (reserved : UInt8)
    (address : SocketAddress) :
    ([] : List UInt8).length =
      padding (address.value transactionId reserved).length := by
  have isLength := length_value transactionId reserved address
  cases ip : address.ip with
  | v4 octets =>
      rw [ip] at isLength
      rw [← Option.some.inj isLength]
      rfl
  | v6 octets =>
      rw [ip] at isLength
      rw [← Option.some.inj isLength]
      rfl

def mappedAddress
    (transactionId : Vector UInt8 12) (reserved : UInt8)
    (address : SocketAddress) : StunAttribute where
  kind := UInt16.ofNat xorMappedAddress
  value := address.value transactionId reserved
  filler := []
  padded := padding_value transactionId reserved address

/-- A Binding Success response with the attributes. -/
def bindingResponse (transactionId : Vector UInt8 12)
    (attributes : List UInt8) : List UInt8 :=
  toBigEndian 2 bindingSuccess ++
    (toBigEndian 2 attributes.length ++
      (cookieBytes.toList ++ (transactionId.toList ++ attributes)))

/-! ## Reading an attribute -/

/-- The address behind the family and the port is not read. -/
theorem readMappedAddress_passedOver
    (transactionId : Vector UInt8 12) (before after value : List UInt8)
    {start : Nat} (isStart : start = before.length)
    (long : 8 ≤ value.length)
    (passed :
      ∀ needed, familyLength (value.getD 1 0) = some needed →
        value.length < needed) :
    readMappedAddress (before ++ (value ++ after)) transactionId start
        value.length =
      some (.passedOver value.length) := by
  obtain ⟨reserved, family, high, low, rest, rfl⟩ :
      ∃ reserved family high low rest,
        value = reserved :: family :: high :: low :: rest := by
    match value, long with
    | reserved :: family :: high :: low :: rest, _ =>
        exact ⟨reserved, family, high, low, rest, rfl⟩
  have first :
      bytesAt? (before ++ ([reserved, family] ++
          (high :: low :: rest ++ after))) start 2 =
        some #v[reserved, family] :=
    bytesAt?_append before _ #v[reserved, family] rfl isStart
  have second :
      bytesAt? ((before ++ [reserved, family]) ++ ([high, low] ++
          (rest ++ after))) (start + 2) 2 =
        some #v[high, low] := by
    refine bytesAt?_append _ _ #v[high, low] rfl ?_
    rw [isStart, List.length_append]
    rfl
  have notFirst : ¬ (family = 0x01 ∧ 8 ≤ (reserved :: family :: high ::
      low :: rest).length) := by
    rintro ⟨rfl, _⟩
    have tooShort := passed 8 rfl
    omega
  have notSecond : ¬ (family = 0x02 ∧ 20 ≤ (reserved :: family :: high ::
      low :: rest).length) := by
    rintro ⟨rfl, enough⟩
    have tooShort := passed 20 rfl
    omega
  rw [List.append_assoc] at second
  simp only [List.cons_append, List.nil_append] at first second
  simp only [readMappedAddress, u16At?, List.cons_append, first, second,
    Option.bind_eq_bind, Option.bind_some, Option.map_some]
  exact (if_neg notFirst).trans (if_neg notSecond)

/-- The header of an attribute, and where its value begins. -/
theorem readAttribute_header
    (transactionId : Vector UInt8 12) (before after : List UInt8)
    (entry : StunAttribute) (fits : entry.value.length < 65536) :
    readAttribute (before ++ (entry.bytes ++ after)) transactionId
        before.length =
      if entry.kind.toNat = xorMappedAddress ∧ 8 ≤ entry.value.length then
        readMappedAddress (before ++ (entry.bytes ++ after)) transactionId
          (before.length + 4) entry.value.length
      else some (.passedOver entry.value.length) := by
  have kind :
      u16At? (before ++ (entry.bytes ++ after)) before.length =
        some entry.kind.toNat := by
    rw [StunAttribute.bytes, List.append_assoc]
    exact u16At?_append before _ entry.kind.toNat_lt rfl
  have length :
      u16At? (before ++ (entry.bytes ++ after)) (before.length + 2) =
        some entry.value.length := by
    have shape :
        before ++ (entry.bytes ++ after) =
          (before ++ toBigEndian 2 entry.kind.toNat) ++
            (toBigEndian 2 entry.value.length ++
              (entry.value ++ entry.filler ++ after)) := by
      simp [StunAttribute.bytes]
    rw [shape]
    refine u16At?_append _ _ fits ?_
    rw [List.length_append, length_toBigEndian]
  have inside :
      ¬ (before ++ (entry.bytes ++ after)).length <
        before.length + 4 + entry.value.length := by
    simp only [StunAttribute.bytes, List.length_append,
      length_toBigEndian]
    omega
  simp only [readAttribute, kind, length, Option.bind_eq_bind,
    Option.bind_some, if_neg inside]

theorem entry_shape
    (before after : List UInt8) (entry : StunAttribute) :
    before ++ (entry.bytes ++ after) =
      (before ++ (toBigEndian 2 entry.kind.toNat ++
          toBigEndian 2 entry.value.length)) ++
        (entry.value ++ (entry.filler ++ after)) := by
  simp [StunAttribute.bytes]

theorem readAttribute_passedOver
    (transactionId : Vector UInt8 12) (before after : List UInt8)
    {entry : StunAttribute} (fits : entry.value.length < 65536)
    (passed : entry.PassedOver) :
    readAttribute (before ++ (entry.bytes ++ after)) transactionId
        before.length =
      some (.passedOver entry.value.length) := by
  rw [readAttribute_header transactionId before after entry fits]
  by_cases mapped :
      entry.kind.toNat = xorMappedAddress ∧ 8 ≤ entry.value.length
  · rw [if_pos mapped, entry_shape]
    refine
      readMappedAddress_passedOver transactionId _ _ _ ?_ mapped.2
        (passed mapped.1)
    simp only [List.length_append, length_toBigEndian]
  · rw [if_neg mapped]

/-- The masks cancel. -/
theorem readMappedAddress_found
    (transactionId : Vector UInt8 12) (before after : List UInt8)
    (reserved : UInt8) (address : SocketAddress) {start : Nat}
    (isStart : start = before.length) :
    readMappedAddress
        (before ++ (address.value transactionId reserved ++ after))
        transactionId start
        (address.value transactionId reserved).length =
      some (.found address) := by
  have family :
      bytesAt?
          (before ++ (address.value transactionId reserved ++ after))
          start 2 =
        some #v[reserved, address.ip.family] := by
    rw [SocketAddress.value, List.append_assoc]
    exact bytesAt?_append before _ #v[reserved, address.ip.family] rfl isStart
  have port :
      u16At? (before ++ (address.value transactionId reserved ++ after))
          (start + 2) =
        some (address.port ^^^ portMask).toNat := by
    rw [SocketAddress.value, List.append_assoc, List.append_assoc,
      ← List.append_assoc before]
    refine u16At?_append _ _ (UInt16.toNat_lt _) ?_
    rw [isStart, List.length_append]
    rfl
  have octets :
      ∀ {length : Nat} (masked : Vector UInt8 length),
        address.ip.masked transactionId = masked.toList →
          bytesAt?
              (before ++ (address.value transactionId reserved ++ after))
              (start + 4) length =
            some masked := by
    intro length masked isMasked
    have shape :
        before ++ (address.value transactionId reserved ++ after) =
          (before ++ ([reserved, address.ip.family] ++
            toBigEndian 2 (address.port ^^^ portMask).toNat)) ++
              (address.ip.masked transactionId ++ after) := by
      simp [SocketAddress.value]
    rw [shape]
    refine bytesAt?_append _ _ masked isMasked ?_
    simp only [List.length_append, List.length_cons, List.length_nil,
      length_toBigEndian]
    omega
  have isLength := length_value transactionId reserved address
  have unmaskedPort :
      UInt16.ofNat (address.port ^^^ portMask).toNat ^^^ portMask =
        address.port := by
    rw [UInt16.ofNat_toNat, xorPort_cancel]
  simp only [readMappedAddress, family, port, Option.bind_eq_bind,
    Option.bind_some, unmaskedPort]
  obtain ⟨ip, port⟩ := address
  cases ip with
  | v4 unmasked =>
      rw [← Option.some.inj isLength, @octets 4 _ rfl]
      simp [IpAddress.family, xorBytes_cancel]
  | v6 unmasked =>
      rw [← Option.some.inj isLength, @octets 16 _ rfl]
      simp [IpAddress.family, xorBytes_cancel]

theorem readAttribute_found
    (transactionId : Vector UInt8 12) (before after : List UInt8)
    (reserved : UInt8) (address : SocketAddress) :
    readAttribute
        (before ++
          ((mappedAddress transactionId reserved address).bytes ++ after))
        transactionId before.length =
      some (.found address) := by
  have isLength := length_value transactionId reserved address
  have short :
      (address.value transactionId reserved).length = 8 ∨
        (address.value transactionId reserved).length = 20 := by
    cases ip : address.ip with
    | v4 octets =>
        rw [ip] at isLength
        exact Or.inl (Option.some.inj isLength).symm
    | v6 octets =>
        rw [ip] at isLength
        exact Or.inr (Option.some.inj isLength).symm
  have fits :
      (mappedAddress transactionId reserved address).value.length <
        65536 := by
    change (address.value transactionId reserved).length < 65536
    omega
  have mapped :
      (mappedAddress transactionId reserved address).kind.toNat =
          xorMappedAddress ∧
        8 ≤
          (mappedAddress transactionId reserved address).value.length := by
    refine ⟨rfl, ?_⟩
    change 8 ≤ (address.value transactionId reserved).length
    omega
  rw [readAttribute_header transactionId before after _ fits,
    if_pos mapped, entry_shape]
  refine
    readMappedAddress_found transactionId _ _ reserved address ?_
  simp only [List.length_append, length_toBigEndian]

/-! ## The loop -/

section Loop

variable {message : List UInt8} {transactionId : Vector UInt8 12}
  {declaredEnd offset : Nat}

theorem attributeLoop_passedOver
    {length : Nat} (inside : offset + 4 ≤ declaredEnd)
    (passed :
      readAttribute message transactionId offset =
        some (.passedOver length)) :
    attributeLoop message transactionId declaredEnd offset =
      attributeLoop message transactionId declaredEnd
        (nextAttribute offset length) := by
  rw [attributeLoop, if_pos inside, passed]

theorem attributeLoop_found
    {address : SocketAddress} (inside : offset + 4 ≤ declaredEnd)
    (found :
      readAttribute message transactionId offset =
        some (.found address)) :
    attributeLoop message transactionId declaredEnd offset =
      some (.ok address) := by
  rw [attributeLoop, if_pos inside, found]

theorem attributeLoop_truncated
    (inside : offset + 4 ≤ declaredEnd)
    (truncated :
      readAttribute message transactionId offset = some .truncated) :
    attributeLoop message transactionId declaredEnd offset =
      some (.error "Truncated STUN attribute") := by
  rw [attributeLoop, if_pos inside, truncated]

theorem attributeLoop_past
    (past : declaredEnd < offset + 4) :
    attributeLoop message transactionId declaredEnd offset =
      some
        (.error "STUN response did not include XOR-MAPPED-ADDRESS") := by
  rw [attributeLoop, if_neg (Nat.not_le_of_lt past)]

theorem length_entry (entry : StunAttribute) :
    entry.bytes.length =
      4 + entry.value.length + padding entry.value.length := by
  simp only [StunAttribute.bytes, List.length_append,
    length_toBigEndian, entry.padded]
  omega

theorem nextAttribute_entry (entry : StunAttribute) (start : Nat) :
    nextAttribute start entry.value.length =
      start + entry.bytes.length := by
  rw [length_entry, nextAttribute]
  omega

/-- Attributes that are passed over lead to what stands behind them. -/
theorem attributeLoop_entries
    (before after : List UInt8) {entries : List StunAttribute}
    (passed : ∀ entry ∈ entries, entry.PassedOver)
    (declared :
      before.length + (entries.flatMap StunAttribute.bytes).length ≤
        declaredEnd)
    (short : (entries.flatMap StunAttribute.bytes).length < 65536) :
    attributeLoop
        (before ++ (entries.flatMap StunAttribute.bytes ++ after))
        transactionId declaredEnd before.length =
      attributeLoop
        (before ++ (entries.flatMap StunAttribute.bytes ++ after))
        transactionId declaredEnd
        (before ++ entries.flatMap StunAttribute.bytes).length := by
  induction entries generalizing before with
  | nil => rw [List.flatMap_nil, List.append_nil]
  | cons entry rest inductionHypothesis =>
      rw [List.flatMap_cons, List.length_append] at declared short
      have isLength := length_entry entry
      have fits : entry.value.length < 65536 := by omega
      have read :=
        readAttribute_passedOver transactionId before
          (rest.flatMap StunAttribute.bytes ++ after) fits
          (passed entry List.mem_cons_self)
      have later :=
        inductionHypothesis (before ++ entry.bytes)
          (fun other member => passed other (List.mem_cons_of_mem _ member))
          (by rw [List.length_append]; omega) (by omega)
      have shape :
          before ++ ((entry :: rest).flatMap StunAttribute.bytes ++
              after) =
            before ++ (entry.bytes ++
              (rest.flatMap StunAttribute.bytes ++ after)) := by
        simp
      rw [shape, attributeLoop_passedOver (by omega) read,
        nextAttribute_entry, ← List.length_append]
      rw [List.append_assoc] at later
      rw [later, List.flatMap_cons, List.append_assoc]

end Loop

/-! ## The header -/

/-- The type, the cookie and the transaction are the expected ones. -/
structure HeaderMatches
    (message : List UInt8) (transactionId : Vector UInt8 12) : Prop where
  kind : message.take 2 = toBigEndian 2 bindingSuccess
  cookie : (message.drop 4).take 4 = cookieBytes.toList
  transaction : (message.drop 8).take 12 = transactionId.toList

/-- The length field of the header. -/
def declaredLength (message : List UInt8) : Nat :=
  ofBigEndian ((message.drop 2).take 2)

theorem bytesAt?_inside
    {message : List UInt8} {start length : Nat}
    (fits : start + length ≤ message.length) :
    ∃ bytes, bytesAt? message start length = some bytes ∧
      bytes.toList = (message.drop start).take length := by
  refine ⟨_, dif_pos fits, ?_⟩
  simp

theorem u16At?_inside
    {message : List UInt8} {start : Nat}
    (fits : start + 2 ≤ message.length) :
    u16At? message start =
      some (ofBigEndian ((message.drop start).take 2)) := by
  obtain ⟨bytes, isRead, isTaken⟩ := bytesAt?_inside fits
  rw [u16At?, isRead, Option.map_some, isTaken]

/-- Two bytes that spell a word are its encoding. -/
theorem eq_toBigEndian_two
    {bytes : List UInt8} (two : bytes.length = 2) :
    bytes = toBigEndian 2 (ofBigEndian bytes) := by
  obtain ⟨high, low, rfl⟩ := List.length_eq_two.mp two
  have highSmall := high.toNat_lt
  have lowSmall := low.toNat_lt
  have isHigh :
      UInt8.ofNat ((high.toNat * 256 + low.toNat) / 256 % 256) = high := by
    rw [show (high.toNat * 256 + low.toNat) / 256 % 256 = high.toNat by
      omega, UInt8.ofNat_toNat]
  have isLow :
      UInt8.ofNat ((high.toNat * 256 + low.toNat) % 256) = low := by
    rw [show (high.toNat * 256 + low.toNat) % 256 = low.toNat by omega,
      UInt8.ofNat_toNat]
  simp only [toBigEndian, ofBigEndian, List.foldl_cons, List.foldl_nil,
    Nat.zero_mul, Nat.zero_add, isHigh, isLow, List.nil_append,
    List.cons_append]

theorem HeaderMatches.long
    {message : List UInt8} {transactionId : Vector UInt8 12}
    (isHeader : HeaderMatches message transactionId) :
    20 ≤ message.length := by
  have size := congrArg List.length isHeader.transaction
  rw [List.length_take, List.length_drop, Vector.length_toList] at size
  omega

theorem parse_accepted
    {message : List UInt8} {transactionId : Vector UInt8 12}
    (isHeader : HeaderMatches message transactionId) :
    parseBindingResponse message transactionId =
      if message.length < 20 + declaredLength message then
        some (.error "Truncated STUN binding response")
      else
        attributeLoop message transactionId
          (20 + declaredLength message) 20 := by
  have long := isHeader.long
  have kind : u16At? message 0 = some bindingSuccess := by
    rw [u16At?_inside (by omega), List.drop_zero, isHeader.kind]
    rfl
  obtain ⟨cookie, isCookie, cookieRead⟩ :=
    @bytesAt?_inside message 4 4 (by omega)
  obtain ⟨echoed, isEchoed, echoedRead⟩ :=
    @bytesAt?_inside message 8 12 (by omega)
  rw [isHeader.cookie, Vector.toList_inj] at cookieRead
  rw [isHeader.transaction, Vector.toList_inj] at echoedRead
  have declared :
      u16At? message 2 = some (declaredLength message) :=
    u16At?_inside (by omega)
  rw [parseBindingResponse, if_neg (by omega)]
  simp only [kind, isCookie, isEchoed, declared, cookieRead, echoedRead,
    Option.bind_eq_bind, Option.bind_some, ne_eq, not_true_eq_false,
    or_self, if_false]

theorem eq_of_bytesAt?
    {message : List UInt8} {start length : Nat}
    {bytes : Vector UInt8 length}
    (isRead : bytesAt? message start length = some bytes) :
    (message.drop start).take length = bytes.toList := by
  unfold bytesAt? at isRead
  split at isRead
  · cases isRead
    simp
  · cases isRead

theorem headerMatches_of_reads
    {message : List UInt8} {transactionId : Vector UInt8 12}
    (kind : u16At? message 0 = some bindingSuccess)
    (cookie : bytesAt? message 4 4 = some cookieBytes)
    (transaction : bytesAt? message 8 12 = some transactionId) :
    HeaderMatches message transactionId where
  kind := by
    obtain ⟨bytes, isRead, isKind⟩ := Option.map_eq_some_iff.mp kind
    have taken := eq_of_bytesAt? isRead
    rw [List.drop_zero] at taken
    rw [taken, eq_toBigEndian_two Vector.length_toList, isKind]
  cookie := eq_of_bytesAt? cookie
  transaction := eq_of_bytesAt? transaction

/-- What is said to a datagram that is no response of the transaction. -/
theorem parse_refused
    {message : List UInt8} {transactionId : Vector UInt8 12}
    (refused : ¬ HeaderMatches message transactionId) :
    parseBindingResponse message transactionId =
      if message.length < 20 ∨ u16At? message 0 ≠ some bindingSuccess then
        some (.error "Invalid STUN binding response")
      else
        some
          (.error
            "STUN response transaction did not match request") := by
  by_cases short : message.length < 20
  · rw [parseBindingResponse, if_pos short, if_pos (Or.inl short)]
  · rw [parseBindingResponse, if_neg short]
    obtain ⟨cookie, isCookie, _⟩ :=
      @bytesAt?_inside message 4 4 (by omega)
    obtain ⟨echoed, isEchoed, _⟩ :=
      @bytesAt?_inside message 8 12 (by omega)
    have isKind := @u16At?_inside message 0 (by omega)
    generalize ofBigEndian ((message.drop 0).take 2) = kind at isKind
    by_cases success : kind = bindingSuccess
    · have differs : cookie ≠ cookieBytes ∨ echoed ≠ transactionId := by
        by_contra same
        obtain ⟨sameCookie, sameTransaction⟩ := not_or.mp same
        rw [success] at isKind
        rw [not_not.mp sameCookie] at isCookie
        rw [not_not.mp sameTransaction] at isEchoed
        exact refused (headerMatches_of_reads isKind isCookie isEchoed)
      have accepted :
          ¬ (message.length < 20 ∨
            u16At? message 0 ≠ some bindingSuccess) := by
        rw [isKind, success]
        exact not_or.mpr ⟨short, fun other => other rfl⟩
      rw [if_neg accepted]
      simp only [isKind, isCookie, isEchoed, success,
        Option.bind_eq_bind, Option.bind_some, ne_eq, not_true_eq_false,
        if_false]
      exact if_pos differs
    · have invalid :
          message.length < 20 ∨
            u16At? message 0 ≠ some bindingSuccess := by
        rw [isKind]
        exact Or.inr fun same => success (Option.some.inj same)
      rw [if_pos invalid]
      simp only [isKind, Option.bind_eq_bind, Option.bind_some]
      exact if_pos success

/-! ## Decoding -/

section Decoding

variable (transactionId : Vector UInt8 12)

theorem response_behind (body : List UInt8) :
    bindingResponse transactionId body =
      (toBigEndian 2 bindingSuccess ++
          (toBigEndian 2 body.length ++
            (cookieBytes.toList ++ transactionId.toList))) ++ body := by
  simp [bindingResponse]

theorem length_response_header (body : List UInt8) :
    (toBigEndian 2 bindingSuccess ++
        (toBigEndian 2 body.length ++
          (cookieBytes.toList ++ transactionId.toList))).length = 20 := by
  simp

theorem response_header (body : List UInt8) :
    HeaderMatches (bindingResponse transactionId body) transactionId := by
  have cookie :
      bindingResponse transactionId body =
        (toBigEndian 2 bindingSuccess ++ toBigEndian 2 body.length) ++
          (cookieBytes.toList ++ (transactionId.toList ++ body)) := by
    simp [bindingResponse]
  have transaction :
      bindingResponse transactionId body =
        (toBigEndian 2 bindingSuccess ++ (toBigEndian 2 body.length ++
          cookieBytes.toList)) ++ (transactionId.toList ++ body) := by
    simp [bindingResponse]
  constructor
  case kind =>
    rw [bindingResponse]
    exact List.take_left' (length_toBigEndian 2 bindingSuccess)
  case cookie =>
    rw [cookie, List.drop_left' (by simp), List.take_left' (by simp)]
  case transaction =>
    rw [transaction, List.drop_left' (by simp), List.take_left' (by simp)]

theorem declaredLength_response
    {body : List UInt8} (short : body.length ≤ 65535) :
    declaredLength (bindingResponse transactionId body) = body.length := by
  have small : body.length < 256 ^ 2 := by omega
  rw [declaredLength, bindingResponse, List.drop_left' (by simp),
    List.take_left' (by simp), ofBigEndian_toBigEndian_of_lt small]

theorem parse_response
    {body : List UInt8} (short : body.length ≤ 65535) :
    parseBindingResponse (bindingResponse transactionId body)
        transactionId =
      attributeLoop (bindingResponse transactionId body) transactionId
        (20 + body.length) 20 := by
  have whole :
      (bindingResponse transactionId body).length = 20 + body.length := by
    rw [response_behind, List.length_append, length_response_header]
  rw [parse_accepted (response_header transactionId body),
    declaredLength_response transactionId short, whole,
    if_neg (Nat.lt_irrefl _)]

end Decoding

/-- The address is found behind any attributes that are passed over, whatever
follows it, and only in a Binding Success of the transaction. -/
theorem binding_response_decoded
    (transactionId : Vector UInt8 12) (address : SocketAddress)
    (reserved : UInt8) {entries : List StunAttribute}
    (following : List UInt8)
    (passed : ∀ entry ∈ entries, entry.PassedOver)
    (short :
      (entries.flatMap StunAttribute.bytes ++
          ((mappedAddress transactionId reserved address).bytes ++
            following)).length ≤ 65535) :
    parseBindingResponse
        (bindingResponse transactionId
          (entries.flatMap StunAttribute.bytes ++
            ((mappedAddress transactionId reserved address).bytes ++
              following)))
        transactionId =
      some (.ok address) ∧
      ∀ message : List UInt8,
        message.take 2 ≠ toBigEndian 2 bindingSuccess ∨
            (message.drop 4).take 4 ≠ cookieBytes.toList ∨
              (message.drop 8).take 12 ≠ transactionId.toList →
          ∃ error,
            parseBindingResponse message transactionId =
              some (.error error) := by
  constructor
  · rw [parse_response transactionId short, response_behind]
    have isHeader :=
      length_response_header transactionId
        (entries.flatMap StunAttribute.bytes ++
          ((mappedAddress transactionId reserved address).bytes ++
            following))
    generalize toBigEndian 2 bindingSuccess ++ _ = header at isHeader ⊢
    have isEntry :=
      length_entry (mappedAddress transactionId reserved address)
    have found :=
      readAttribute_found transactionId
        (header ++ entries.flatMap StunAttribute.bytes) following reserved
        address
    rw [List.append_assoc] at found
    rw [List.length_append, List.length_append] at short
    have walked :=
      @attributeLoop_entries transactionId
        (20 + (entries.flatMap StunAttribute.bytes ++
          ((mappedAddress transactionId reserved address).bytes ++
            following)).length)
        header
        ((mappedAddress transactionId reserved address).bytes ++ following)
        entries passed
        (by
          rw [isHeader, List.length_append]
          omega)
        (by omega)
    rw [isHeader] at walked
    rw [walked]
    refine attributeLoop_found ?_ found
    simp only [List.length_append, isHeader]
    omega
  · intro message other
    have refused : ¬ HeaderMatches message transactionId := by
      intro isHeader
      rcases other with kind | cookie | transaction
      · exact kind isHeader.kind
      · exact cookie isHeader.cookie
      · exact transaction isHeader.transaction
    rw [parse_refused refused]
    split
    · exact ⟨_, rfl⟩
    · exact ⟨_, rfl⟩

/-- A software name of five bytes, and then an address of a family that is
unknown. -/
def otherAttributes : List StunAttribute :=
  [⟨0x8022, [113, 117, 105, 99, 51], [0, 0, 0], rfl⟩,
    ⟨0x0020, [0, 9, 1, 2, 3, 4, 5, 6, 7, 8], [0, 0], rfl⟩]

theorem otherAttributes_passedOver :
    ∀ entry ∈ otherAttributes, entry.PassedOver := by
  intro entry member
  simp only [otherAttributes, List.mem_cons, List.not_mem_nil,
    or_false] at member
  rcases member with rfl | rfl
  · intro mapped
    cases mapped
  · intro _ needed known
    cases known

theorem binding_response_decoded_v4 :
    parseBindingResponse
        (bindingResponse (Vector.replicate 12 7)
          (otherAttributes.flatMap StunAttribute.bytes ++
            ((mappedAddress (Vector.replicate 12 7) 0
              ⟨.v4 #v[192, 0, 2, 1], 3478⟩).bytes ++ [])))
        (Vector.replicate 12 7) =
      some (.ok ⟨.v4 #v[192, 0, 2, 1], 3478⟩) :=
  (binding_response_decoded (Vector.replicate 12 7)
    ⟨.v4 #v[192, 0, 2, 1], 3478⟩ 0 [] otherAttributes_passedOver
    (by decide +kernel)).1

/-! ## What lies behind the declared end -/

/-- The offsets at which the loop looks for an attribute. -/
inductive Reached
    (message : List UInt8) (transactionId : Vector UInt8 12)
    (declaredEnd : Nat) : Nat → Prop
  | first : Reached message transactionId declaredEnd 20
  | next {offset length : Nat} :
      Reached message transactionId declaredEnd offset →
      offset + 4 ≤ declaredEnd →
      readAttribute message transactionId offset =
        some (.passedOver length) →
      Reached message transactionId declaredEnd
        (nextAttribute offset length)

def declaredEnd (message : List UInt8) : Nat :=
  20 + declaredLength message

/-- A value of an attribute that the loop reaches runs past the declared
end. -/
def Overruns
    (message : List UInt8) (transactionId : Vector UInt8 12) : Prop :=
  ∃ offset length,
    Reached message transactionId (declaredEnd message) offset ∧
      offset + 4 ≤ declaredEnd message ∧
        u16At? message (offset + 2) = some length ∧
          declaredEnd message < offset + 4 + length

/-- Both datagrams carry the declared bytes, and these are the same. -/
structure SameDeclared (first second : List UInt8) : Prop where
  firstLong : declaredEnd first ≤ first.length
  secondLong : declaredEnd first ≤ second.length
  same :
    second.take (declaredEnd first) = first.take (declaredEnd first)

section Declared

variable {first second message : List UInt8}
  {transactionId : Vector UInt8 12} {offset length : Nat}

theorem SameDeclared.slice
    (declared : SameDeclared first second) {start size : Nat}
    (inside : start + size ≤ declaredEnd first) :
    (second.drop start).take size = (first.drop start).take size := by
  have cut :
      ∀ message : List UInt8,
        (message.drop start).take size =
          (((message.take (declaredEnd first)).drop start).take size) := by
    intro message
    rw [List.drop_take, List.take_take, Nat.min_eq_left (by omega)]
  rw [cut second, cut first, declared.same]

theorem SameDeclared.bytesAt?_eq
    (declared : SameDeclared first second) {start size : Nat}
    (inside : start + size ≤ declaredEnd first) :
    bytesAt? second start size = bytesAt? first start size := by
  have slice := declared.slice inside
  have firstLong := declared.firstLong
  have secondLong := declared.secondLong
  obtain ⟨firstBytes, isFirst, firstRead⟩ :=
    @bytesAt?_inside first start size (by omega)
  obtain ⟨secondBytes, isSecond, secondRead⟩ :=
    @bytesAt?_inside second start size (by omega)
  rw [isFirst, isSecond, Option.some.injEq, ← Vector.toList_inj,
    firstRead, secondRead, slice]

theorem SameDeclared.u16At?_eq
    (declared : SameDeclared first second) {start : Nat}
    (inside : start + 2 ≤ declaredEnd first) :
    u16At? second start = u16At? first start := by
  rw [u16At?, u16At?, declared.bytesAt?_eq inside]

theorem SameDeclared.length_eq
    (declared : SameDeclared first second) :
    declaredLength second = declaredLength first := by
  have inside : 2 + 2 ≤ declaredEnd first := by
    unfold declaredEnd
    omega
  rw [declaredLength, declaredLength, declared.slice inside]

theorem SameDeclared.end_eq (declared : SameDeclared first second) :
    declaredEnd second = declaredEnd first := by
  rw [declaredEnd, declaredEnd, declared.length_eq]

theorem SameDeclared.symm (declared : SameDeclared first second) :
    SameDeclared second first where
  firstLong := by
    rw [declared.end_eq]
    exact declared.secondLong
  secondLong := by
    rw [declared.end_eq]
    exact declared.firstLong
  same := by
    rw [declared.end_eq]
    exact declared.same.symm

theorem SameDeclared.header
    (declared : SameDeclared first second)
    (isHeader : HeaderMatches first transactionId) :
    HeaderMatches second transactionId := by
  have inside : 20 ≤ declaredEnd first := Nat.le_add_right _ _
  constructor
  case kind =>
    have slice := @SameDeclared.slice first second declared 0 2 (by omega)
    rw [List.drop_zero, List.drop_zero] at slice
    rw [slice, isHeader.kind]
  case cookie =>
    rw [declared.slice (by omega), isHeader.cookie]
  case transaction =>
    rw [declared.slice (by omega), isHeader.transaction]

/-- An attribute inside of the declared bytes is read alike. -/
theorem SameDeclared.readAttribute_eq
    (declared : SameDeclared first second)
    (inside : offset + 4 ≤ declaredEnd first)
    (isLength : u16At? first (offset + 2) = some length)
    (fits : offset + 4 + length ≤ declaredEnd first) :
    readAttribute second transactionId offset =
      readAttribute first transactionId offset := by
  have firstLong := declared.firstLong
  have secondLong := declared.secondLong
  have kind := @SameDeclared.u16At?_eq first second declared offset (by omega)
  have sameLength :=
    @SameDeclared.u16At?_eq first second declared (offset + 2) (by omega)
  simp only [readAttribute, kind, sameLength, isLength,
    Option.bind_eq_bind, Option.bind_some]
  cases u16At? first offset with
  | none => rfl
  | some value =>
      have firstInside : ¬ first.length < offset + 4 + length := by omega
      have secondInside : ¬ second.length < offset + 4 + length := by
        omega
      simp only [Option.bind_some, if_neg firstInside,
        if_neg secondInside]
      by_cases mapped : value = xorMappedAddress ∧ 8 ≤ length
      · rw [if_pos mapped, if_pos mapped]
        have family :=
          @SameDeclared.bytesAt?_eq first second declared (offset + 4) 2
            (by omega)
        have port :=
          @SameDeclared.u16At?_eq first second declared (offset + 4 + 2)
            (by omega)
        have octets :=
          @SameDeclared.bytesAt?_eq first second declared (offset + 4 + 4)
            4 (by omega)
        simp only [readMappedAddress, family, port, octets,
          Option.bind_eq_bind]
        by_cases long : 20 ≤ length
        · have longOctets :=
            @SameDeclared.bytesAt?_eq first second declared
              (offset + 4 + 4) 16 (by omega)
          rw [longOctets]
        · have short (family : UInt8) :
              ¬ (family = 0x02 ∧ 20 ≤ length) :=
            fun both => long both.2
          simp only [if_neg (short _)]
      · rw [if_neg mapped, if_neg mapped]

theorem Reached.loop_eq
    {finish : Nat}
    (reached : Reached message transactionId finish offset) :
    attributeLoop message transactionId finish 20 =
      attributeLoop message transactionId finish offset := by
  induction reached with
  | first => rfl
  | next _ inside passed inductionHypothesis =>
      rw [inductionHypothesis, attributeLoop_passedOver inside passed]

/-- An attribute that is passed over reports its own length. -/
theorem length_of_passedOver
    (passed :
      readAttribute message transactionId offset =
        some (.passedOver length)) :
    u16At? message (offset + 2) = some length := by
  unfold readAttribute readMappedAddress at passed
  cases kind : u16At? message offset with
  | none => simp [kind] at passed
  | some value =>
      cases isLength : u16At? message (offset + 2) with
      | none => simp [kind, isLength] at passed
      | some found =>
          simp only [kind, isLength, Option.bind_eq_bind,
            Option.bind_some] at passed
          split at passed
          · cases passed
          · split at passed
            · cases family : bytesAt? message (offset + 4) 2 with
              | none => simp [family] at passed
              | some familyBytes =>
                  cases port : u16At? message (offset + 4 + 2) with
                  | none => simp [family, port] at passed
                  | some masked =>
                      simp only [family, port, Option.bind_some]
                        at passed
                      split at passed
                      · cases octets :
                            bytesAt? message (offset + 4 + 4) 4 <;>
                          simp [octets] at passed
                      · split at passed
                        · cases octets :
                              bytesAt? message (offset + 4 + 4) 16 <;>
                            simp [octets] at passed
                        · cases passed
                          rfl
            · cases passed
              rfl

/-- Where a further attribute is looked for, the earlier ones lie inside. -/
theorem Reached.transfer
    (declared : SameDeclared first second)
    (reached :
      Reached first transactionId (declaredEnd first) offset)
    (inside : offset + 4 ≤ declaredEnd first) :
    Reached second transactionId (declaredEnd first) offset := by
  induction reached with
  | first => exact Reached.first
  | @next earlier length _ earlierInside passed inductionHypothesis =>
      have fits : earlier + 4 + length ≤ declaredEnd first := by
        unfold nextAttribute at inside
        omega
      refine
        Reached.next (inductionHypothesis earlierInside) earlierInside ?_
      rw [declared.readAttribute_eq earlierInside
        (length_of_passedOver passed) fits, passed]

theorem Overruns.transfer
    (declared : SameDeclared first second)
    (overruns : Overruns first transactionId) :
    Overruns second transactionId := by
  obtain ⟨offset, length, reached, inside, isLength, past⟩ := overruns
  refine ⟨offset, length, ?_, ?_, ?_, ?_⟩
  · rw [declared.end_eq]
    exact reached.transfer declared inside
  · rw [declared.end_eq]
    exact inside
  · rw [declared.u16At?_eq (by omega), isLength]
  · rw [declared.end_eq]
    exact past

/-- Inside of the message an attribute is read completely. -/
theorem readAttribute_inside
    (inside : offset + 4 ≤ message.length)
    (isLength : u16At? message (offset + 2) = some length)
    (fits : offset + 4 + length ≤ message.length) :
    (∃ address,
        readAttribute message transactionId offset =
          some (.found address)) ∨
      readAttribute message transactionId offset =
        some (.passedOver length) := by
  have notPast : ¬ message.length < offset + 4 + length := by omega
  have kind := @u16At?_inside message offset (by omega)
  simp only [readAttribute, kind, isLength, Option.bind_eq_bind,
    Option.bind_some, if_neg notPast]
  split
  · rename_i mapped
    have long := mapped.2
    obtain ⟨family, isFamily, _⟩ :=
      @bytesAt?_inside message (offset + 4) 2 (by omega)
    have port := @u16At?_inside message (offset + 4 + 2) (by omega)
    obtain ⟨octets, areOctets, _⟩ :=
      @bytesAt?_inside message (offset + 4 + 4) 4 (by omega)
    simp only [readMappedAddress, isFamily, port, areOctets,
      Option.bind_eq_bind, Option.bind_some]
    split
    · exact Or.inl ⟨_, rfl⟩
    · split
      · rename_i isLong
        have enough := isLong.2
        obtain ⟨longOctets, areLong, _⟩ :=
          @bytesAt?_inside message (offset + 4 + 4) 16 (by omega)
        simp only [areLong, Option.bind_some]
        exact Or.inl ⟨_, rfl⟩
      · exact Or.inr rfl
  · exact Or.inr rfl

/-- Without an overrun the loop reads the declared bytes only. -/
theorem attributeLoop_eq
    (declared : SameDeclared first second)
    (stays : ¬ Overruns first transactionId)
    (reached :
      Reached first transactionId (declaredEnd first) offset) :
    attributeLoop second transactionId (declaredEnd first) offset =
      attributeLoop first transactionId (declaredEnd first) offset := by
  induction remaining : declaredEnd first - offset
    using Nat.strong_induction_on generalizing offset with
  | _ measure inductionHypothesis =>
      by_cases inside : offset + 4 ≤ declaredEnd first
      · have firstLong := declared.firstLong
        have isLength := @u16At?_inside first (offset + 2) (by omega)
        have fits :
            offset + 4 + ofBigEndian ((first.drop (offset + 2)).take 2) ≤
              declaredEnd first := by
          by_contra past
          exact
            stays
              ⟨offset, _, reached, inside, isLength, Nat.lt_of_not_le past⟩
        have same :
            readAttribute second transactionId offset =
              readAttribute first transactionId offset :=
          declared.readAttribute_eq inside isLength fits
        rcases @readAttribute_inside first transactionId offset _
            (by omega) isLength (by omega) with
          ⟨address, found⟩ | passed
        · rw [attributeLoop_found inside found,
            attributeLoop_found inside (same.trans found)]
        · rw [attributeLoop_passedOver inside passed,
            attributeLoop_passedOver inside (same.trans passed)]
          refine
            inductionHypothesis _ ?_ (reached.next inside passed) rfl
          unfold nextAttribute
          omega
      · rw [attributeLoop_past (Nat.lt_of_not_le inside),
          attributeLoop_past (Nat.lt_of_not_le inside)]

/-- A refused header is refused for the same reason. -/
theorem parse_refused_eq
    (declared : SameDeclared first second)
    (refused : ¬ HeaderMatches first transactionId) :
    parseBindingResponse second transactionId =
      parseBindingResponse first transactionId := by
  have inside : 20 ≤ declaredEnd first := Nat.le_add_right _ _
  have firstLong := declared.firstLong
  have secondLong := declared.secondLong
  have kind := @SameDeclared.u16At?_eq first second declared 0 (by omega)
  have alsoRefused : ¬ HeaderMatches second transactionId :=
    fun isHeader => refused (declared.symm.header isHeader)
  have firstWhole : ¬ first.length < 20 := by omega
  have secondWhole : ¬ second.length < 20 := by omega
  rw [parse_refused refused, parse_refused alsoRefused, kind]
  simp only [firstWhole, secondWhole]

theorem parse_reached
    (isHeader : HeaderMatches message transactionId)
    (long : declaredEnd message ≤ message.length)
    (reached :
      Reached message transactionId (declaredEnd message) offset) :
    parseBindingResponse message transactionId =
      attributeLoop message transactionId (declaredEnd message)
        offset := by
  rw [← reached.loop_eq, parse_accepted isHeader]
  exact if_neg (Nat.not_lt_of_le long)

theorem u16At?_lt
    {start value : Nat} (isRead : u16At? message start = some value) :
    value < 65536 := by
  obtain ⟨bytes, _, rfl⟩ := Option.map_eq_some_iff.mp isRead
  have small := ofBigEndian_lt bytes.toList
  rw [Vector.length_toList] at small
  exact small

theorem readAttribute_truncated
    (inside : offset + 4 ≤ message.length)
    (isLength : u16At? message (offset + 2) = some length)
    (past : message.length < offset + 4 + length) :
    readAttribute message transactionId offset = some .truncated := by
  have kind := @u16At?_inside message offset (by omega)
  simp only [readAttribute, kind, isLength, Option.bind_eq_bind,
    Option.bind_some, if_pos past]

theorem SameDeclared.parse_reached
    (declared : SameDeclared first second)
    (isHeader : HeaderMatches first transactionId)
    (reached :
      Reached first transactionId (declaredEnd first) offset)
    (inside : offset + 4 ≤ declaredEnd first) :
    parseBindingResponse second transactionId =
      attributeLoop second transactionId (declaredEnd first) offset := by
  have stillReached := reached.transfer declared inside
  rw [← declared.end_eq] at stillReached ⊢
  exact
    Quiczilla.parse_reached (declared.header isHeader)
      declared.symm.firstLong stillReached

/-- An attribute that runs past the end is truncated where the datagram ends
there, and is not where enough bytes follow. -/
theorem overrun_depends
    (isHeader : HeaderMatches message transactionId)
    (long : declaredEnd message ≤ message.length)
    (overruns : Overruns message transactionId) :
    ∃ cut padded, SameDeclared message cut ∧
      SameDeclared message padded ∧
        parseBindingResponse cut transactionId ≠
          parseBindingResponse padded transactionId := by
  obtain ⟨offset, length, reached, inside, isLength, past⟩ := overruns
  have isCut :
      (message.take (declaredEnd message)).length =
        declaredEnd message :=
    List.length_take_of_le long
  have sameCut :
      SameDeclared message (message.take (declaredEnd message)) := by
    refine ⟨long, Nat.le_of_eq isCut.symm, ?_⟩
    rw [List.take_take, Nat.min_self]
  have samePadded :
      SameDeclared message
        (message.take (declaredEnd message) ++
          List.replicate 65536 0) := by
    refine ⟨long, ?_, ?_⟩
    · rw [List.length_append, isCut]
      omega
    · rw [List.take_left' isCut]
  refine ⟨_, _, sameCut, samePadded, ?_⟩
  have cutLength := sameCut.u16At?_eq (by omega : offset + 2 + 2 ≤ _)
  have paddedLength := samePadded.u16At?_eq (by omega : offset + 2 + 2 ≤ _)
  rw [isLength] at cutLength paddedLength
  have short := u16At?_lt isLength
  have whole :
      (message.take (declaredEnd message) ++
          List.replicate 65536 0).length =
        declaredEnd message + 65536 := by
    rw [List.length_append, isCut, List.length_replicate]
  have truncated :=
    @readAttribute_truncated _ transactionId offset length
      (by omega) cutLength (by omega)
  rw [sameCut.parse_reached isHeader reached inside,
    samePadded.parse_reached isHeader reached inside,
    attributeLoop_truncated inside truncated]
  rcases @readAttribute_inside _ transactionId offset length
      (by omega) paddedLength (by omega) with
    ⟨address, found⟩ | passed
  · rw [attributeLoop_found inside found]
    simp
  · rw [attributeLoop_passedOver inside passed,
      attributeLoop_past (by unfold nextAttribute; omega)]
    simp

end Declared

/-- The result is determined by the declared bytes, and an attribute that runs
past them is rejected. -/
def DependsOnDeclared
    (message : List UInt8) (transactionId : Vector UInt8 12) : Prop :=
  ∀ other, SameDeclared message other →
    parseBindingResponse other transactionId =
        parseBindingResponse message transactionId ∧
      (Overruns other transactionId →
        ∃ error,
          parseBindingResponse other transactionId =
            some (.error error))

/-- For every datagram that carries the declared bytes: nothing behind them
matters exactly when the header is refused or no attribute runs past them. -/
theorem depends_on_declared_exactly
    (message : List UInt8) (transactionId : Vector UInt8 12)
    (long : declaredEnd message ≤ message.length) :
    DependsOnDeclared message transactionId ↔
      ¬ HeaderMatches message transactionId ∨
        ¬ Overruns message transactionId := by
  constructor
  · intro depends
    by_contra neither
    obtain ⟨isHeader, overruns⟩ := not_or.mp neither
    obtain ⟨cut, padded, sameCut, samePadded, differ⟩ :=
      overrun_depends (not_not.mp isHeader) long (not_not.mp overruns)
    exact
      differ
        ((depends cut sameCut).1.trans (depends padded samePadded).1.symm)
  · rintro (refused | stays) other declared
    · have same := parse_refused_eq declared refused
      refine ⟨same, fun _ => ?_⟩
      rw [same, parse_refused refused]
      split
      · exact ⟨_, rfl⟩
      · exact ⟨_, rfl⟩
    · constructor
      · by_cases isHeader : HeaderMatches message transactionId
        · have otherHeader := declared.header isHeader
          have otherLong : declaredEnd other ≤ other.length :=
            declared.symm.firstLong
          rw [parse_reached isHeader long Reached.first,
            parse_reached otherHeader otherLong Reached.first,
            declared.end_eq]
          exact attributeLoop_eq declared stays Reached.first
        · exact parse_refused_eq declared isHeader
      · intro overruns
        exact absurd (overruns.transfer declared.symm) stays

/-- A response that ends behind the header of its only attribute. -/
def shortResponse : List UInt8 :=
  bindingResponse (Vector.replicate 12 7) [0x00, 0x20, 0x00, 0x08]

theorem declaredEnd_shortResponse :
    declaredEnd shortResponse = 24 ∧ shortResponse.length = 24 := by
  decide +kernel

theorem depends_on_declared_short :
    DependsOnDeclared shortResponse (Vector.replicate 12 7) ↔
      ¬ HeaderMatches shortResponse (Vector.replicate 12 7) ∨
        ¬ Overruns shortResponse (Vector.replicate 12 7) :=
  depends_on_declared_exactly shortResponse (Vector.replicate 12 7) (by
    obtain ⟨isEnd, isLength⟩ := declaredEnd_shortResponse
    omega)

/-- What follows the declared bytes of this response is taken for an
address. -/
theorem address_behind_declared_end :
    declaredEnd shortResponse ≤ shortResponse.length ∧
      ¬ DependsOnDeclared shortResponse (Vector.replicate 12 7) := by
  obtain ⟨isEnd, isLength⟩ := declaredEnd_shortResponse
  have long : declaredEnd shortResponse ≤ shortResponse.length := by omega
  have overruns : Overruns shortResponse (Vector.replicate 12 7) := by
    refine ⟨20, 8, Reached.first, ?_, ?_, ?_⟩
    · omega
    · decide +kernel
    · omega
  refine ⟨long, fun depends => ?_⟩
  obtain ⟨cut, padded, sameCut, samePadded, differ⟩ :=
    overrun_depends (response_header (Vector.replicate 12 7) _) long
      overruns
  exact
    differ
      ((depends cut sameCut).1.trans (depends padded samePadded).1.symm)

/-! ## Every index lies inside -/

/-- The loop is entered, and comes to an attribute at the offset. -/
structure LoopReaches
    (message : List UInt8) (transactionId : Vector UInt8 12)
    (offset : Nat) : Prop where
  isHeader : HeaderMatches message transactionId
  long : declaredEnd message ≤ message.length
  reached : Reached message transactionId (declaredEnd message) offset
  inside : offset + 4 ≤ declaredEnd message

/-- A turn of the loop reads inside of the message: the header of the attribute,
and its value unless the attribute is refused.  The next offset is larger, and
the largest sum of indices fits an index of 32 bits. -/
structure TurnInside
    (message : List UInt8) (transactionId : Vector UInt8 12)
    (offset : Nat) : Prop where
  header : offset + 4 ≤ message.length
  reads :
    ∃ length result,
      u16At? message (offset + 2) = some length ∧
        readAttribute message transactionId offset = some result ∧
          (result = .truncated ∨
            offset + 4 + length ≤ message.length) ∧
            (∀ passed, result = .passedOver passed → passed = length) ∧
              offset < nextAttribute offset length ∧
                nextAttribute offset length < 2 ^ 32

/-- The parser returns, and every turn of its loop reads inside. -/
structure ParsesInside
    (message : List UInt8) (transactionId : Vector UInt8 12) : Prop where
  returns :
    ∃ result, parseBindingResponse message transactionId = some result
  turns :
    ∀ offset, LoopReaches message transactionId offset →
      TurnInside message transactionId offset

section Inside

variable {message : List UInt8} {transactionId : Vector UInt8 12}
  {offset : Nat}

theorem declaredEnd_le (message : List UInt8) :
    declaredEnd message ≤ 20 + 65535 := by
  have two : ((message.drop 2).take 2).length ≤ 2 :=
    List.length_take_le _ _
  have small := ofBigEndian_lt ((message.drop 2).take 2)
  have bounded :
      256 ^ ((message.drop 2).take 2).length ≤ 256 ^ 2 :=
    Nat.pow_le_pow_right (by omega) two
  rw [declaredEnd, declaredLength]
  omega

theorem turn_inside
    (long : offset + 4 ≤ message.length)
    (bounded : offset + 4 ≤ 20 + 65535) :
    TurnInside message transactionId offset := by
  have isLength := @u16At?_inside message (offset + 2) (by omega)
  generalize ofBigEndian ((message.drop (offset + 2)).take 2) = length
    at isLength
  have short := u16At?_lt isLength
  have padded : padding length < 4 := Nat.mod_lt _ (by omega)
  have increases : offset < nextAttribute offset length := by
    unfold nextAttribute
    omega
  have fits : nextAttribute offset length < 2 ^ 32 := by
    unfold nextAttribute
    omega
  refine ⟨long, length, ?_⟩
  by_cases past : message.length < offset + 4 + length
  · exact
      ⟨_, isLength, readAttribute_truncated long isLength past,
        Or.inl rfl, nofun, increases, fits⟩
  · have within := Nat.le_of_not_lt past
    rcases readAttribute_inside long isLength within with
      ⟨address, found⟩ | passed
    · exact
        ⟨_, isLength, found, Or.inr within, nofun, increases, fits⟩
    · refine
        ⟨_, isLength, passed, Or.inr within, ?_, increases, fits⟩
      rintro other ⟨⟩
      rfl

theorem LoopReaches.turn
    (reaches : LoopReaches message transactionId offset) :
    TurnInside message transactionId offset :=
  turn_inside (Nat.le_trans reaches.inside reaches.long)
    (Nat.le_trans reaches.inside (declaredEnd_le message))

/-- The loop returns: every turn ends it or moves the offset on. -/
theorem attributeLoop_returns
    {finish : Nat} (long : finish ≤ message.length)
    (bounded : finish ≤ 20 + 65535) :
    ∃ result,
      attributeLoop message transactionId finish offset =
        some result := by
  induction remaining : finish - offset
    using Nat.strong_induction_on generalizing offset with
  | _ measure inductionHypothesis =>
      by_cases inside : offset + 4 ≤ finish
      · obtain ⟨length, result, _, isRead, _, isLength, increases, _⟩ :=
          (@turn_inside message transactionId offset
            (Nat.le_trans inside long)
            (Nat.le_trans inside bounded)).reads
        cases result with
        | truncated => exact ⟨_, attributeLoop_truncated inside isRead⟩
        | found address => exact ⟨_, attributeLoop_found inside isRead⟩
        | passedOver passed =>
            rw [isLength passed rfl] at isRead
            rw [attributeLoop_passedOver inside isRead]
            exact inductionHypothesis _ (by omega) rfl
      · exact ⟨_, attributeLoop_past (Nat.lt_of_not_le inside)⟩

end Inside

/-- Every datagram is parsed without an index out of range. -/
theorem parses_every_datagram
    (message : List UInt8) (transactionId : Vector UInt8 12) :
    ParsesInside message transactionId where
  returns := by
    by_cases isHeader : HeaderMatches message transactionId
    · rw [parse_accepted isHeader]
      split
      · exact ⟨_, rfl⟩
      · rename_i long
        exact
          attributeLoop_returns (Nat.le_of_not_lt long)
            (declaredEnd_le message)
    · rw [parse_refused isHeader]
      split
      · exact ⟨_, rfl⟩
      · exact ⟨_, rfl⟩
  turns := fun _ reaches => reaches.turn

end Quiczilla
