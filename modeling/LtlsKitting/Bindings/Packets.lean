import LtlsKitting.Formats.Numerals
import LtlsKitting.Formats.Packing
import LtlsKitting.Php.Bytes

/-!
# Packets

The bindings name a device by a numeral over an alphabet of 58 symbols and talk
to it in packets.  A packet has a header of eight bytes: the device, the length
of the packet, the function, the sequence number with an option, and a byte
for errors.  The integers that follow are packed in the format of the function.
-/

namespace LtlsKitting.Bindings

open LtlsKitting.Php LtlsKitting.Formats

/-! ## Names of devices -/

/-- `BASE58` -/
def base58 : Alphabet UInt8 where
  symbols :=
    bytes "123456789abcdefghijkmnopqrstuvwxyzABCDEFGHJKLMNPQRSTUVWXYZ"
  distinct := by decide
  large := by decide

def base58encode (value : Nat) : Bytes :=
  base58.write value

/-- `none` is an exception. -/
def base58decode (encoded : Bytes) : Option Nat :=
  base58.read encoded

/-- A name has no leading `1`, unless it is the name of zero. -/
def CanonicalName (name : Bytes) : Prop :=
  name ≠ [] ∧ (name.head? = some 49 → name.length = 1)

/-- Encoding and decoding are inverse to each other on canonical names. -/
theorem base58encode_eq_iff (value : Nat) (name : Bytes) :
    base58encode value = name ↔
      base58decode name = some value ∧ CanonicalName name :=
  base58.write_eq_iff

def uid64ToUid32 (uid64 : Nat) : Nat :=
  let value1 := uid64 &&& 0xFFFFFFFF
  let value2 := (uid64 >>> 32) &&& 0xFFFFFFFF
  (value1 &&& 0x00000FFF) |||
    ((value1 &&& 0x0F000000) >>> 12) |||
    ((value2 &&& 0x0000003F) <<< 16) |||
    ((value2 &&& 0x000F0000) <<< 6) |||
    ((value2 &&& 0x3F000000) <<< 2)

/-- The device that a name stands for. -/
def deviceUid (name : Bytes) : Option Nat :=
  (base58decode name).map (fun uid =>
    if 0xFFFFFFFF < uid then uid64ToUid32 uid else uid)

/-! ## Headers -/

/-- `<IBBBB` -/
def headerLayout : Layout :=
  [⟨1, 4⟩, ⟨1, 1⟩, ⟨1, 1⟩, ⟨1, 1⟩, ⟨1, 1⟩]

/-- The header of a request. -/
def createPacketHeader
    (uid length functionId sequenceNumber : Nat) (responseExpected : Bool) :
    Option Bytes :=
  let rBit := if responseExpected then 1 else 0
  pack headerLayout
    [[uid], [length], [functionId],
      [(sequenceNumber <<< 4) ||| (rBit <<< 3)], [0]]

/-- The request that is sent: the header and the packed arguments. -/
def sendRequest
    (uid functionId sequenceNumber : Nat) (responseExpected : Bool)
    (form : Layout) (data : List (List Nat)) : Option Bytes := do
  let header ←
    createPacketHeader uid (8 + form.size) functionId sequenceNumber
      responseExpected
  let arguments ← pack form data
  pure (header ++ arguments)

def getUidFromData (data : Bytes) : Nat :=
  numberOf (data.take 4)

/-- The byte at an index; there is one in every packet. -/
def byteAt (data : Bytes) (index : Nat) : Nat :=
  (data.getD index 0).toNat

def getLengthFromData (data : Bytes) : Nat :=
  byteAt data 4

def getFunctionIdFromData (data : Bytes) : Nat :=
  byteAt data 5

def getSequenceNumberFromData (data : Bytes) : Nat :=
  (byteAt data 6 >>> 4) &&& 0x0F

/-- The sequence number of the next request, and the counter after it. -/
def getNextSequenceNumber (counter : Nat) : Nat × Nat :=
  (counter + 1, (counter + 1) % 15)

/-- What the members of a sent request are. -/
structure IsRequest
    (packet : Bytes) (uid functionId sequenceNumber : Nat)
    (form : Layout) (data : List (List Nat)) : Prop where
  length : packet.length = 8 + form.size
  uid : getUidFromData packet = uid
  lengthByte : getLengthFromData packet = packet.length
  functionId : getFunctionIdFromData packet = functionId
  sequenceNumber : getSequenceNumberFromData packet = sequenceNumber
  arguments : unpack form (packet.drop 8) = some data

/-- Header and options fit: the request is sent. -/
structure Sendable
    (uid functionId sequenceNumber : Nat) (form : Layout)
    (data : List (List Nat)) : Prop where
  uid : uid < 2 ^ 32
  functionId : functionId < 256
  sequenceNumber : sequenceNumber < 16
  length : 8 + form.size < 256
  arguments : form.Holds data

theorem options_lt
    {sequenceNumber : Nat} (small : sequenceNumber < 16) (rBit : Nat)
    (isBit : rBit < 2) :
    (sequenceNumber <<< 4) ||| (rBit <<< 3) < 256 ∧
      (((sequenceNumber <<< 4) ||| (rBit <<< 3)) >>> 4) &&& 0x0F =
        sequenceNumber := by
  have all :
      ∀ number < 16, ∀ bit < 2,
        (number <<< 4) ||| (bit <<< 3) < 256 ∧
          (((number <<< 4) ||| (bit <<< 3)) >>> 4) &&& 0x0F = number := by
    decide
  exact all sequenceNumber small rBit isBit

/-- A request that fits is sent, and its members can be read from it. -/
theorem sendRequest_of_sendable
    {uid functionId sequenceNumber : Nat} {form : Layout}
    {data : List (List Nat)}
    (sendable : Sendable uid functionId sequenceNumber form data)
    (responseExpected : Bool) :
    ∃ packet,
      sendRequest uid functionId sequenceNumber responseExpected form data =
          some packet ∧
        IsRequest packet uid functionId sequenceNumber form data := by
  have isBit : (if responseExpected then 1 else 0) < 2 := by
    cases responseExpected <;> decide
  obtain ⟨optionsSmall, optionsRead⟩ :=
    options_lt sendable.sequenceNumber _ isBit
  let options :=
    (sequenceNumber <<< 4) ||| ((if responseExpected then 1 else 0) <<< 3)
  let header :=
    littleEndian 4 uid ++
      [UInt8.ofNat (8 + form.size), UInt8.ofNat functionId,
        UInt8.ofNat options, 0]
  have fits :
      headerLayout.Holds
        [[uid], [8 + form.size], [functionId], [options], [0]] := by
    exact
      .cons (.single (by simpa using sendable.uid))
        (.cons (.single (by simpa using sendable.length))
          (.cons (.single (by simpa using sendable.functionId))
            (.cons (.single (by simpa using optionsSmall))
              (.cons (.single (by decide)) .nil))))
  have isHeader :
      createPacketHeader uid (8 + form.size) functionId sequenceNumber
          responseExpected =
        some header := by
    simp only [createPacketHeader]
    rw [pack, if_pos fits]
    simp only [headerLayout, List.zipWith_cons_cons, List.zipWith_nil_right,
      PackedField.write, List.flatMap_cons, List.flatMap_nil, List.append_nil,
      List.flatten_cons, List.flatten_nil, header, littleEndian, options]
    rfl
  have headerLength : header.length = 8 := by
    simp [header]
  have arguments :
      pack form data = some (List.zipWith PackedField.write form data).flatten := by
    rw [pack, if_pos sendable.arguments]
  refine ⟨header ++ (List.zipWith PackedField.write form data).flatten, ?_, ?_⟩
  · simp only [sendRequest, isHeader, arguments]
    rfl
  · have whole :
        (header ++ (List.zipWith PackedField.write form data).flatten).length =
          8 + form.size := by
      rw [List.length_append, headerLength, length_fields sendable.arguments]
    have inHeader :
        ∀ index < 8,
          byteAt (header ++ (List.zipWith PackedField.write form data).flatten)
              index =
            byteAt header index := by
      intro index inside
      rw [byteAt, byteAt, List.getD_eq_getElem?_getD, List.getD_eq_getElem?_getD,
        List.getElem?_append_left (by omega)]
    refine ⟨whole, ?_, ?_, ?_, ?_, ?_⟩
    · have isUid :
          (header ++ (List.zipWith PackedField.write form data).flatten).take 4 =
            littleEndian 4 uid := by
        rw [List.take_append_of_le_length (by omega)]
        exact List.take_left' (length_littleEndian 4 uid)
      rw [getUidFromData, isUid]
      exact numberOf_littleEndian (by simpa using sendable.uid)
    · rw [getLengthFromData, inHeader 4 (by decide), whole]
      simp only [byteAt, header, littleEndian]
      simpa using sendable.length
    · rw [getFunctionIdFromData, inHeader 5 (by decide)]
      simp only [byteAt, header, littleEndian]
      simpa using sendable.functionId
    · rw [getSequenceNumberFromData, inHeader 6 (by decide)]
      have read : byteAt header 6 = options := by
        simp only [byteAt, header, littleEndian]
        simpa using optionsSmall
      rw [read]
      exact optionsRead
    · rw [List.drop_left' headerLength, unpack_eq_some_iff]
      exact arguments

end LtlsKitting.Bindings
