import Mathlib.Data.List.TakeWhile
import Mathlib.Data.Nat.Digits.Lemmas

/-!
# Byte strings and the string functions of the server

The server's strings are byte strings.  This module gives the built-in string
functions that the server uses: `explode`, `implode`, `substr` with a negative
length, the cast of a string to an integer, and the two regular expressions,
each of which matches a run of bytes of one class.

The integer cast reads an optional sign and the leading decimal digits after
white space, and saturates at the bounds of a 64-bit integer.
-/

namespace LtlsKitting.Php

/-- A string of the server. -/
abbrev Bytes := List UInt8

/-- The bytes of a source literal. -/
def bytes (literal : String) : Bytes :=
  literal.toUTF8.data.toList

/-- `explode` with a separator of one byte. -/
def explode (separator : UInt8) (text : Bytes) : List Bytes :=
  text.splitOn separator

/-- `implode` with a separator of one byte. -/
def implode (separator : UInt8) (fields : List Bytes) : Bytes :=
  [separator].intercalate fields

/-- `substr( $text,0,-1 )`. -/
def withoutLastByte (text : Bytes) : Bytes :=
  text.dropLast

/-- The class `[:alnum:]` in the C locale. -/
def isAlnum (byte : UInt8) : Bool :=
  (48 ≤ byte && byte ≤ 57) || (65 ≤ byte && byte ≤ 90) ||
    (97 ≤ byte && byte ≤ 122)

/-- The class `[:space:]` in the C locale. -/
def isSpace (byte : UInt8) : Bool :=
  byte == 32 || (9 ≤ byte && byte ≤ 13)

def isDigit (byte : UInt8) : Bool :=
  48 ≤ byte && byte ≤ 57

/-- The first group of `/([[:alnum:][:space:]]*)/`.  The expression is not
anchored, and it matches the possibly empty run at the start of the text. -/
def leadingName (text : Bytes) : Bytes :=
  text.takeWhile (fun byte => isAlnum byte || isSpace byte)

/-- The text of the literal that `pgvalue` makes of a text:
`pg_escape_string` stops at a zero byte. -/
def pgvalue (text : Bytes) : Bytes :=
  text.takeWhile (fun byte => byte != 0)

/-- The first group of `/^\[([[:alnum:]]*)\]/`, if the text matches. -/
def sectionHeader : Bytes → Option Bytes
  | [] => none
  | first :: rest =>
      if first = 91 ∧ (rest.dropWhile isAlnum).head? = some 93 then
        some (rest.takeWhile isAlnum)
      else
        none

/-- The value of a list of decimal digits, the most significant first. -/
def digitsValue (digits : Bytes) : Nat :=
  digits.foldl (fun value digit => 10 * value + (digit.toNat - 48)) 0

/-- The smallest integer of the server. -/
def minInt : Int := -2 ^ 63

/-- The largest integer of the server. -/
def maxInt : Int := 2 ^ 63 - 1

def saturate (value : Int) : Int :=
  max minInt (min value maxInt)

/-- The cast `(int)` of a string. -/
def intval (text : Bytes) : Int :=
  saturate <|
    match text.dropWhile isSpace with
    | [] => 0
    | first :: rest =>
        if first = 45 then
          -(digitsValue (rest.takeWhile isDigit) : Int)
        else if first = 43 then
          digitsValue (rest.takeWhile isDigit)
        else
          digitsValue ((first :: rest).takeWhile isDigit)

/-- The decimal digits of a number, the most significant first. -/
def decimalDigits (value : Nat) : List Nat :=
  if value = 0 then [0] else (Nat.digits 10 value).reverse

/-- The byte of a decimal digit. -/
def digitByte (digit : Nat) : UInt8 :=
  UInt8.ofNat (48 + digit)

/-- The decimal notation of an integer. -/
def decimal (value : Int) : Bytes :=
  (if value < 0 then [45] else []) ++
    (decimalDigits value.natAbs).map digitByte

theorem pgvalue_eq_iff (text : Bytes) : pgvalue text = text ↔ 0 ∉ text := by
  rw [pgvalue, List.takeWhile_eq_self_iff]
  constructor
  · intro all member
    exact absurd (all 0 member) (by decide)
  · intro absent byte member
    rw [bne_iff_ne]
    rintro rfl
    exact absent member

theorem pgvalue_append {first : Bytes} (whole : 0 ∉ first) (second : Bytes) :
    pgvalue (first ++ second) = first ++ pgvalue second := by
  rw [pgvalue, List.takeWhile_append_of_pos]
  · rfl
  · intro byte member
    rw [bne_iff_ne]
    rintro rfl
    exact whole member

/-- What is behind a zero byte makes no difference. -/
theorem pgvalue_append_of_mem {first : Bytes} (cut : 0 ∈ first)
    (second : Bytes) : pgvalue (first ++ second) = pgvalue first := by
  rw [pgvalue, List.takeWhile_append, if_neg]
  · rfl
  · intro sameLength
    have whole : pgvalue first = first :=
      (List.takeWhile_prefix _).eq_of_length sameLength
    exact (pgvalue_eq_iff first).mp whole cut

/-- A class name has no zero byte. -/
theorem pgvalue_leadingName (text : Bytes) :
    pgvalue (leadingName text) = leadingName text := by
  rw [pgvalue_eq_iff]
  intro member
  exact absurd (List.mem_takeWhile_imp member) (by decide)

/-- A text of terminated lines is split into its lines and an empty rest. -/
theorem explode_lines {lines : List Bytes} {separator : UInt8}
    (ending : Bytes)
    (whole : ∀ line ∈ lines, separator ∉ line ++ ending) :
    explode separator
        (lines.flatMap (fun line => line ++ ending ++ [separator])) =
      lines.map (fun line => line ++ ending) ++ [[]] := by
  induction lines with
  | nil =>
      simp [explode]
  | cons line rest inductionHypothesis =>
      have first : separator ∉ line ++ ending :=
        whole line (List.mem_cons_self ..)
      have later :=
        inductionHypothesis
          (fun other member => whole other (List.mem_cons_of_mem _ member))
      simp only [explode] at later ⊢
      rw [List.flatMap_cons, List.append_assoc (line ++ ending),
        List.singleton_append,
        List.splitOn_append_cons_self_of_not_mem first, later]
      rfl

/-- Bytes after a text become part of its last field. -/
theorem explode_append
    (separator : UInt8) {suffix : Bytes} (whole : separator ∉ suffix)
    (text : Bytes) :
    ∃ fields last,
      explode separator text = fields ++ [last] ∧
        explode separator (text ++ suffix) = fields ++ [last ++ suffix] := by
  induction text with
  | nil =>
      refine ⟨[], [], ?_, ?_⟩
      · simp [explode]
      · simp [explode, List.splitOn_eq_singleton whole]
  | cons byte text inductionHypothesis =>
      obtain ⟨fields, last, split, splitLonger⟩ := inductionHypothesis
      simp only [explode] at split splitLonger ⊢
      rw [List.cons_append, List.splitOn_cons_eq_if_modifyHead,
        List.splitOn_cons_eq_if_modifyHead, split, splitLonger]
      by_cases separates : (byte == separator) = true
      · rw [if_pos separates, if_pos separates]
        exact ⟨[] :: fields, last, rfl, rfl⟩
      · rw [if_neg separates, if_neg separates]
        cases fields with
        | nil => exact ⟨[], byte :: last, rfl, rfl⟩
        | cons field rest => exact ⟨(byte :: field) :: rest, last, rfl, rfl⟩

theorem implode_append_last (fields : List Bytes) (last suffix : Bytes) :
    implode 44 (fields ++ [last]) ++ suffix =
      implode 44 (fields ++ [last ++ suffix]) := by
  induction fields with
  | nil =>
      simp [implode]
  | cons field rest inductionHypothesis =>
      have nonempty :
          ∀ text : Bytes, rest ++ [text] ≠ [] := by simp
      simp only [implode] at inductionHypothesis ⊢
      rw [List.cons_append, List.cons_append,
        List.intercalate_cons_of_ne_nil (nonempty last),
        List.intercalate_cons_of_ne_nil (nonempty (last ++ suffix)),
        List.append_assoc, List.append_assoc, inductionHypothesis,
        List.append_assoc]

/-! ## Decimal notation and the integer cast -/

theorem decimalDigits_lt {value digit : Nat}
    (member : digit ∈ decimalDigits value) : digit < 10 := by
  simp only [decimalDigits] at member
  split at member
  · simp only [List.mem_singleton] at member
    omega
  · exact Nat.digits_lt_base (by decide) (List.mem_reverse.mp member)

theorem decimalDigits_ne_nil (value : Nat) : decimalDigits value ≠ [] := by
  simp only [decimalDigits]
  split
  · simp
  · simpa [Nat.digits_eq_nil_iff_eq_zero] using ‹¬ value = 0›

private theorem foldl_reverse_digits (digits : List Nat) :
    digits.reverse.foldl (fun value digit => 10 * value + digit) 0 =
      Nat.ofDigits 10 digits := by
  induction digits with
  | nil =>
      rfl
  | cons digit rest inductionHypothesis =>
      rw [List.reverse_cons, List.foldl_append, inductionHypothesis,
        Nat.ofDigits_cons]
      simp only [List.foldl_cons, List.foldl_nil]
      omega

theorem decimalDigits_foldl (value : Nat) :
    (decimalDigits value).foldl
        (fun current digit => 10 * current + digit) 0 = value := by
  simp only [decimalDigits]
  split
  · simpa using Eq.symm ‹value = 0›
  · rw [foldl_reverse_digits, Nat.ofDigits_digits]

theorem toNat_digitByte {digit : Nat} (small : digit < 10) :
    (digitByte digit).toNat = 48 + digit := by
  simp only [digitByte]
  rw [UInt8.toNat_ofNat']
  omega

private theorem foldl_digitByte
    (digits : List Nat) (small : ∀ digit ∈ digits, digit < 10)
    (start : Nat) :
    (digits.map digitByte).foldl
        (fun value digit => 10 * value + (digit.toNat - 48)) start =
      digits.foldl (fun value digit => 10 * value + digit) start := by
  induction digits generalizing start with
  | nil =>
      rfl
  | cons digit rest inductionHypothesis =>
      have value : (digitByte digit).toNat - 48 = digit := by
        rw [toNat_digitByte (small digit (by simp))]
        omega
      simp only [List.map_cons, List.foldl_cons, value]
      exact
        inductionHypothesis
          (fun later member => small later (by simp [member])) _

/-- The digits of a number are read back as the number. -/
theorem digitsValue_decimalDigits (value : Nat) :
    digitsValue ((decimalDigits value).map digitByte) = value := by
  simp only [digitsValue]
  rw [foldl_digitByte _ (fun digit member => decimalDigits_lt member)]
  exact decimalDigits_foldl value

theorem isDigit_iff (byte : UInt8) :
    isDigit byte = true ↔ 48 ≤ byte.toNat ∧ byte.toNat ≤ 57 := by
  simp [isDigit, UInt8.le_iff_toNat_le]

theorem isDigit_digitByte {digit : Nat} (small : digit < 10) :
    isDigit (digitByte digit) = true := by
  rw [isDigit_iff, toNat_digitByte small]
  omega

private theorem takeWhile_digits_append
    {digits rest : Bytes}
    (allDigits : ∀ byte ∈ digits, isDigit byte = true)
    (stops : ∀ byte ∈ rest.head?, isDigit byte = false) :
    (digits ++ rest).takeWhile isDigit = digits := by
  rw [List.takeWhile_append_of_pos allDigits]
  cases rest with
  | nil =>
      simp
  | cons first following =>
      have stopped : isDigit first = false := stops first (by simp)
      simp [stopped]

private theorem decimalDigits_bytes (value : Nat) :
    ∀ byte ∈ (decimalDigits value).map digitByte, isDigit byte = true := by
  intro byte member
  obtain ⟨digit, digitMember, rfl⟩ := List.mem_map.mp member
  exact isDigit_digitByte (decimalDigits_lt digitMember)

theorem digit_not_space_not_sign {byte : UInt8}
    (digit : isDigit byte = true) :
    isSpace byte = false ∧ byte ≠ 45 ∧ byte ≠ 43 := by
  rw [isDigit_iff] at digit
  refine ⟨?_, ?_, ?_⟩
  · simp only [isSpace, Bool.or_eq_false_iff, beq_eq_false_iff_ne,
      Bool.and_eq_false_iff, decide_eq_false_iff_not,
      UInt8.le_iff_toNat_le, ne_eq, ← UInt8.toNat_inj]
    simp
    omega
  · rintro rfl
    simp at digit
  · rintro rfl
    simp at digit

theorem saturate_eq {value : Int}
    (lower : minInt ≤ value) (upper : value ≤ maxInt) :
    saturate value = value := by
  simp only [saturate]
  omega

/-- The cast reads back the decimal notation of every 64-bit integer, also
when other bytes follow it. -/
theorem intval_decimal_append
    {value : Int} (lower : minInt ≤ value) (upper : value ≤ maxInt)
    {rest : Bytes} (stops : ∀ byte ∈ rest.head?, isDigit byte = false) :
    intval (decimal value ++ rest) = value := by
  have readDigits :
      digitsValue
          (((decimalDigits value.natAbs).map digitByte ++ rest).takeWhile
            isDigit) = value.natAbs := by
    rw [takeWhile_digits_append (decimalDigits_bytes _) stops,
      digitsValue_decimalDigits]
  by_cases negative : value < 0
  · have shape :
        decimal value ++ rest =
          45 :: ((decimalDigits value.natAbs).map digitByte ++ rest) := by
      simp [decimal, negative]
    have notSpace : isSpace 45 = false := by decide
    rw [shape]
    simp only [intval, List.dropWhile_cons, notSpace, Bool.false_eq_true,
      ↓reduceIte]
    rw [readDigits]
    have exact : -(value.natAbs : Int) = value := by omega
    rw [exact]
    exact saturate_eq lower upper
  · obtain ⟨first, following, digitsShape⟩ :=
      List.exists_cons_of_ne_nil (decimalDigits_ne_nil value.natAbs)
    have shape :
        decimal value ++ rest =
          (decimalDigits value.natAbs).map digitByte ++ rest := by
      simp [decimal, negative]
    have firstMember : first ∈ decimalDigits value.natAbs := by
      simp [digitsShape]
    have firstDigit : isDigit (digitByte first) = true :=
      isDigit_digitByte (decimalDigits_lt firstMember)
    obtain ⟨notSpace, notMinus, notPlus⟩ :=
      digit_not_space_not_sign firstDigit
    rw [shape]
    rw [digitsShape] at readDigits ⊢
    simp only [List.map_cons, List.cons_append] at readDigits ⊢
    simp only [intval, List.dropWhile_cons, notSpace, Bool.false_eq_true,
      ↓reduceIte, notMinus, notPlus]
    rw [readDigits]
    have exact : (value.natAbs : Int) = value := by omega
    rw [exact]
    exact saturate_eq lower upper

theorem takeWhile_append_stop
    {condition : UInt8 → Bool} {stop : UInt8} (stops : condition stop = false)
    (text : Bytes) :
    (text ++ [stop]).takeWhile condition = text.takeWhile condition := by
  induction text with
  | nil =>
      simp [stops]
  | cons byte text inductionHypothesis =>
      rw [List.cons_append, List.takeWhile_cons, List.takeWhile_cons,
        inductionHypothesis]

/-- A carriage return at the end of a text does not change its cast. -/
theorem intval_append_return (text : Bytes) :
    intval (text ++ [13]) = intval text := by
  have notDigit : isDigit 13 = false := by decide
  have digits := takeWhile_append_stop notDigit
  have space : isSpace 13 = true := by decide
  simp only [intval, List.dropWhile_append]
  cases shape : text.dropWhile isSpace with
  | nil =>
      simp [space]
  | cons first rest =>
      have longer := digits (first :: rest)
      rw [List.cons_append] at longer
      simp only [List.isEmpty_cons, Bool.false_eq_true, if_false,
        List.cons_append, digits, longer]

/-- A carriage return at the end of a line does not change whether it is a
header. -/
theorem sectionHeader_append_return (first : UInt8) (rest : Bytes) :
    sectionHeader (first :: rest ++ [13]) = sectionHeader (first :: rest) := by
  have notAlnum : isAlnum 13 = false := by decide
  have run := takeWhile_append_stop notAlnum rest
  have next :
      ((rest ++ [13]).dropWhile isAlnum).head? = some 93 ↔
        (rest.dropWhile isAlnum).head? = some 93 := by
    rw [List.dropWhile_append]
    cases shape : rest.dropWhile isAlnum with
    | nil => simp [notAlnum]
    | cons byte following => simp
  simp only [List.cons_append, sectionHeader, next, run]

/-- Decimal notation consists of digits and a sign. -/
theorem decimal_bytes (value : Int) :
    ∀ byte ∈ decimal value, isDigit byte = true ∨ byte = 45 := by
  intro byte member
  simp only [decimal] at member
  rcases List.mem_append.mp member with sign | digits
  · split at sign
    · exact Or.inr (List.mem_singleton.mp sign)
    · cases sign
  · exact Or.inl (decimalDigits_bytes value.natAbs byte digits)

example : intval (bytes " -12x") = -12 := by decide
example : sectionHeader (bytes "[KIT]\r") = some (bytes "KIT") := by decide

end LtlsKitting.Php
