import Mathlib.Data.Nat.Digits.Lemmas

/-!
# Packed numbers

A layout is a list of fields, each a number of unsigned integers of the same
width.  Packing writes the integers as little-endian bytes, one field after the
other; it fails if an integer is too large or a field has another number of
integers.  Unpacking reads the same integers, and every text of the right
length is the packing of what it is unpacked to.
-/

namespace LtlsKitting.Formats

/-- The bytes of a number, the lowest first. -/
def littleEndian : Nat → Nat → List UInt8
  | 0, _ => []
  | width + 1, value => UInt8.ofNat value :: littleEndian width (value / 256)

/-- The number with the given bytes, the lowest first. -/
def numberOf : List UInt8 → Nat
  | [] => 0
  | byte :: rest => byte.toNat + 256 * numberOf rest

@[simp]
theorem length_littleEndian (width value : Nat) :
    (littleEndian width value).length = width := by
  induction width generalizing value with
  | zero => rfl
  | succ width inductionHypothesis =>
      simp [littleEndian, inductionHypothesis]

theorem numberOf_littleEndian
    {width value : Nat} (small : value < 256 ^ width) :
    numberOf (littleEndian width value) = value := by
  induction width generalizing value with
  | zero =>
      simp only [Nat.pow_zero, Nat.lt_one_iff] at small
      rw [small]
      rfl
  | succ width inductionHypothesis =>
      have rest : value / 256 < 256 ^ width := by
        rw [Nat.div_lt_iff_lt_mul (by decide), ← Nat.pow_succ]
        exact small
      have low : (UInt8.ofNat value).toNat = value % 256 := by simp
      simp only [littleEndian, numberOf]
      rw [inductionHypothesis rest, low]
      omega

theorem numberOf_lt (text : List UInt8) :
    numberOf text < 256 ^ text.length := by
  induction text with
  | nil => exact Nat.one_pos
  | cons byte rest inductionHypothesis =>
      have low : byte.toNat < 256 := byte.toNat_lt
      rw [List.length_cons, Nat.pow_succ]
      simp only [numberOf]
      omega

theorem littleEndian_numberOf (text : List UInt8) :
    littleEndian text.length (numberOf text) = text := by
  induction text with
  | nil => rfl
  | cons byte rest inductionHypothesis =>
      have low : byte.toNat < 256 := byte.toNat_lt
      have head :
          UInt8.ofNat (byte.toNat + 256 * numberOf rest) = byte := by
        apply UInt8.toNat_inj.mp
        rw [UInt8.toNat_ofNat']
        omega
      have tail : (byte.toNat + 256 * numberOf rest) / 256 = numberOf rest := by
        omega
      simp only [List.length_cons, numberOf, littleEndian, head, tail,
        inductionHypothesis]

/-! ## Fields -/

/-- So many integers of so many bytes each. -/
structure PackedField where
  count : Nat
  width : Nat
  deriving DecidableEq

def PackedField.size (field : PackedField) : Nat :=
  field.count * field.width

/-- The integers are of the number and of the size of the field. -/
def PackedField.Holds (field : PackedField) (values : List Nat) : Prop :=
  values.length = field.count ∧ ∀ value ∈ values, value < 256 ^ field.width

instance (field : PackedField) (values : List Nat) : Decidable (field.Holds values) :=
  inferInstanceAs
    (Decidable
      (values.length = field.count ∧
        ∀ value ∈ values, value < 256 ^ field.width))

def PackedField.write (field : PackedField) (values : List Nat) : List UInt8 :=
  values.flatMap (littleEndian field.width)

/-- So many integers from the beginning of a text. -/
def readNumbers (width : Nat) : Nat → List UInt8 → List Nat
  | 0, _ => []
  | count + 1, text =>
      numberOf (text.take width) :: readNumbers width count (text.drop width)

theorem PackedField.Holds.single
    {width value : Nat} (small : value < 256 ^ width) :
    PackedField.Holds ⟨1, width⟩ [value] := by
  refine ⟨rfl, ?_⟩
  intro other member
  rw [List.mem_singleton.mp member]
  exact small

theorem PackedField.Holds.bytes
    {count : Nat} {values : List UInt8} (sameLength : values.length = count) :
    PackedField.Holds ⟨count, 1⟩ (values.map UInt8.toNat) := by
  refine ⟨by rw [List.length_map, sameLength], ?_⟩
  intro value member
  obtain ⟨byte, _, isValue⟩ := List.mem_map.mp member
  rw [← isValue]
  exact byte.toNat_lt

/-- A field of bytes is written as it is. -/
theorem PackedField.write_bytes (count : Nat) (values : List UInt8) :
    PackedField.write ⟨count, 1⟩ (values.map UInt8.toNat) = values := by
  have single : ∀ byte : UInt8, littleEndian 1 byte.toNat = [byte] :=
    fun byte => congrArg (fun low => [low]) UInt8.ofNat_toNat
  rw [PackedField.write, List.flatMap_map]
  simp only [single]
  exact List.flatMap_singleton' values

theorem length_write {field : PackedField} {values : List Nat}
    (holds : field.Holds values) : (field.write values).length = field.size := by
  rw [PackedField.write, List.length_flatMap]
  simp only [length_littleEndian, List.map_const', List.sum_replicate_nat,
    holds.1, PackedField.size]

theorem readNumbers_write {width : Nat} {values : List Nat}
    (small : ∀ value ∈ values, value < 256 ^ width) (rest : List UInt8) :
    readNumbers width values.length
        (values.flatMap (littleEndian width) ++ rest) =
      values := by
  induction values with
  | nil => rfl
  | cons value others inductionHypothesis =>
      have first :
          (littleEndian width value ++
              (others.flatMap (littleEndian width) ++ rest)).take width =
            littleEndian width value :=
        List.take_left' (length_littleEndian width value)
      have later :
          (littleEndian width value ++
              (others.flatMap (littleEndian width) ++ rest)).drop width =
            others.flatMap (littleEndian width) ++ rest :=
        List.drop_left' (length_littleEndian width value)
      rw [List.flatMap_cons, List.append_assoc, List.length_cons, readNumbers,
        first, later, numberOf_littleEndian (small value (List.mem_cons_self ..)),
        inductionHypothesis
          (fun other member => small other (List.mem_cons_of_mem _ member))]

theorem holds_readNumbers {width count : Nat} {text : List UInt8}
    (long : count * width ≤ text.length) :
    (PackedField.mk count width).Holds (readNumbers width count text) ∧
      (readNumbers width count text).flatMap (littleEndian width) =
        text.take (count * width) := by
  induction count generalizing text with
  | zero =>
      refine ⟨⟨rfl, ?_⟩, ?_⟩
      · intro value member
        cases member
      · rw [Nat.zero_mul, List.take_zero]
        rfl
  | succ count inductionHypothesis =>
      rw [Nat.succ_mul] at long
      have taken : (text.take width).length = width := by
        rw [List.length_take]
        omega
      obtain ⟨⟨sameCount, small⟩, same⟩ :=
        @inductionHypothesis (text.drop width)
          (by rw [List.length_drop]; omega)
      have first :
          littleEndian width (numberOf (text.take width)) =
            text.take width := by
        have written := littleEndian_numberOf (text.take width)
        rw [taken] at written
        exact written
      refine ⟨⟨?_, ?_⟩, ?_⟩
      · rw [readNumbers, List.length_cons, sameCount]
      · intro value member
        rcases List.mem_cons.mp member with rfl | later
        · have bound := numberOf_lt (text.take width)
          rw [taken] at bound
          exact bound
        · exact small value later
      · rw [readNumbers, List.flatMap_cons, first, same, Nat.succ_mul,
          Nat.add_comm (count * width), List.take_add]

/-! ## Layouts -/

abbrev Layout := List PackedField

def Layout.size (layout : Layout) : Nat :=
  (layout.map PackedField.size).sum

/-- Every field holds its integers. -/
def Layout.Holds (layout : Layout) (values : List (List Nat)) : Prop :=
  List.Forall₂ PackedField.Holds layout values

instance Layout.decidableHolds :
    ∀ (layout : Layout) (values : List (List Nat)),
      Decidable (layout.Holds values)
  | [], [] => .isTrue .nil
  | [], _ :: _ => .isFalse (fun holds => by cases holds)
  | _ :: _, [] => .isFalse (fun holds => by cases holds)
  | field :: fields, first :: rest =>
      have := Layout.decidableHolds fields rest
      decidable_of_iff
        (field.Holds first ∧ Layout.Holds fields rest)
        (List.forall₂_cons).symm

/-- The text of integers, if they fit. -/
def pack (layout : Layout) (values : List (List Nat)) : Option (List UInt8) :=
  if layout.Holds values then
    some (List.zipWith PackedField.write layout values).flatten
  else
    none

def unpackFields : Layout → List UInt8 → List (List Nat)
  | [], _ => []
  | field :: fields, text =>
      readNumbers field.width field.count text ::
        unpackFields fields (text.drop field.size)

/-- The integers of a text of the right length. -/
def unpack (layout : Layout) (text : List UInt8) : Option (List (List Nat)) :=
  if text.length = layout.size then some (unpackFields layout text) else none

section

variable {layout : Layout} {values : List (List Nat)} {text : List UInt8}

theorem length_fields (holds : layout.Holds values) :
    (List.zipWith PackedField.write layout values).flatten.length = layout.size := by
  induction holds with
  | nil => rfl
  | @cons field first fields rest holdsFirst _ inductionHypothesis =>
      rw [List.zipWith_cons_cons, List.flatten_cons, List.length_append,
        inductionHypothesis, length_write holdsFirst]
      rfl

theorem unpackFields_fields (holds : layout.Holds values) :
    unpackFields layout (List.zipWith PackedField.write layout values).flatten =
      values := by
  induction holds with
  | nil => rfl
  | @cons field first fields rest holdsFirst _ inductionHypothesis =>
      have later :
          (field.write first ++
              (List.zipWith PackedField.write fields rest).flatten).drop field.size =
            (List.zipWith PackedField.write fields rest).flatten :=
        List.drop_left' (length_write holdsFirst)
      have read :=
        readNumbers_write holdsFirst.2
          (List.zipWith PackedField.write fields rest).flatten
      rw [holdsFirst.1] at read
      rw [List.zipWith_cons_cons, List.flatten_cons, unpackFields, later,
        inductionHypothesis]
      exact congrArg (· :: rest) read

theorem fields_unpackFields (long : text.length = layout.size) :
    layout.Holds (unpackFields layout text) ∧
      (List.zipWith PackedField.write layout (unpackFields layout text)).flatten =
        text := by
  induction layout generalizing text with
  | nil =>
      have empty : text = [] := List.length_eq_zero_iff.mp long
      rw [empty]
      exact ⟨.nil, rfl⟩
  | cons field fields inductionHypothesis =>
      have size : text.length = field.size + Layout.size fields := long
      have enough : field.count * field.width ≤ text.length := by
        rw [size]
        exact Nat.le_add_right _ _
      obtain ⟨holdsFirst, sameFirst⟩ := holds_readNumbers enough
      obtain ⟨holdsRest, sameRest⟩ :=
        @inductionHypothesis (text.drop field.size)
          (by rw [List.length_drop]; omega)
      refine ⟨.cons holdsFirst holdsRest, ?_⟩
      rw [unpackFields, List.zipWith_cons_cons, List.flatten_cons, sameRest]
      have first :
          field.write (readNumbers field.width field.count text) =
            text.take field.size := sameFirst
      rw [first, List.take_append_drop]

theorem length_of_pack (packed : pack layout values = some text) :
    text.length = layout.size := by
  simp only [pack] at packed
  split at packed
  next holds =>
    rw [← Option.some.inj packed]
    exact length_fields holds
  next => cases packed

/-- A text is what integers are packed to exactly if it is unpacked to
them. -/
theorem unpack_eq_some_iff :
    unpack layout text = some values ↔ pack layout values = some text := by
  constructor
  · intro unpacked
    simp only [unpack] at unpacked
    split at unpacked
    next long =>
      obtain ⟨holds, same⟩ := fields_unpackFields long
      rw [Option.some.inj unpacked] at holds same
      rw [pack, if_pos holds, same]
    next => cases unpacked
  · intro packed
    have long := length_of_pack packed
    simp only [pack] at packed
    split at packed
    next holds =>
      rw [unpack, if_pos long, ← Option.some.inj packed,
        unpackFields_fields holds]
    next => cases packed

end

end LtlsKitting.Formats
