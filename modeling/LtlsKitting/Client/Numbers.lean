import LtlsKitting.Php.Values
import Mathlib.Data.List.TakeWhile

/-!
# Texts and numbers of the page

A text of the page is a list of characters.  `parseInt` reads the longest
integer at the start of a text, in decimal or hexadecimal notation.

Numbers of the page are floating-point numbers.  What depends on their
rounding is a parameter: `Browser` gives the document value that a parsed
integer is posted as, the text it is shown as, and two comparisons.  It
promises their exact results for integers of at most 2^53, and that the
comparisons are monotone, as rounding is.
-/

namespace LtlsKitting.Client

open LtlsKitting.Php

/-- A text of the page. -/
abbrev Text := List Char

/-- White space and line terminators. -/
def isWhite (character : Char) : Bool :=
  [9, 10, 11, 12, 13, 32, 0xA0, 0x1680, 0x2028, 0x2029, 0x202F, 0x205F,
      0x3000, 0xFEFF].contains character.val ||
    (0x2000 ≤ character.val && character.val ≤ 0x200A)

/-- The value of a digit in the given radix. -/
def digitValue (radix : Nat) (character : Char) : Option Nat :=
  let value :=
    if '0' ≤ character ∧ character ≤ '9' then
      some (character.toNat - 48)
    else if 'a' ≤ character ∧ character ≤ 'z' then
      some (character.toNat - 87)
    else if 'A' ≤ character ∧ character ≤ 'Z' then
      some (character.toNat - 55)
    else
      none
  value.filter (fun digit => digit < radix)

/-- The digits at the start of a text; without any the result is not a
number. -/
def parseDigits (radix : Nat) (text : Text) : Option Nat :=
  let digits := (text.takeWhile (fun c => (digitValue radix c).isSome))
  if digits.isEmpty then
    none
  else
    some
      (digits.foldl
        (fun value c => radix * value + (digitValue radix c).getD 0) 0)

/-- The digits after an optional sign. -/
def parseUnsigned : Text → Option Nat
  | '0' :: 'x' :: rest => parseDigits 16 rest
  | '0' :: 'X' :: rest => parseDigits 16 rest
  | text => parseDigits 10 text

/-- The integer that `parseInt` reads; `none` is not a number. -/
def parseInt (text : Text) : Option Int :=
  match text.dropWhile isWhite with
  | '-' :: rest => (parseUnsigned rest).map (fun value => -(value : Int))
  | '+' :: rest => (parseUnsigned rest).map (fun value => (value : Int))
  | rest => (parseUnsigned rest).map (fun value => (value : Int))

/-- The text of an integer in a response. -/
def numeral (value : Int) : Text :=
  (decimal value).map (fun byte => Char.ofNat byte.toNat)

/-- The integers that floating-point numbers represent exactly. -/
def Safe (value : Int) : Prop :=
  -2 ^ 53 ≤ value ∧ value ≤ 2 ^ 53

/-- The safe integers whose neighbours are safe as well. -/
def SmallInteger (value : Int) : Prop :=
  -2 ^ 53 < value ∧ value < 2 ^ 53

/-- What the page makes of parsed integers. -/
structure Browser where
  /-- The decoded document value of a posted number. -/
  posted : Int → Json
  /-- The text of a number. -/
  shown : Int → Text
  /-- The comparison `is-should > has`. -/
  exceeds : Int → Int → Int → Bool
  /-- The comparison of two numbers. -/
  below : Int → Int → Bool
  posted_safe : ∀ value, Safe value → posted value = .int value
  shown_safe : ∀ value, Safe value → shown value = numeral value
  exceeds_safe :
    ∀ left right bound,
      Safe left → Safe right → Safe bound → Safe (left - right) →
        exceeds left right bound = decide (bound < left - right)
  below_safe :
    ∀ left right, Safe left → Safe right →
      below left right = decide (left < right)
  exceeds_mono :
    ∀ left more right less bound lower,
      left ≤ more → less ≤ right → lower ≤ bound →
        exceeds left right bound = true → exceeds more less lower = true
  below_mono :
    ∀ left less right more, less ≤ left → right ≤ more →
      below left right = true → below less more = true

/-- A browser that computes with integers. -/
def Browser.exact : Browser where
  posted := .int
  shown := numeral
  exceeds := fun left right bound => decide (bound < left - right)
  below := fun left right => decide (left < right)
  posted_safe := fun _ _ => rfl
  shown_safe := fun _ _ => rfl
  exceeds_safe := fun _ _ _ _ _ _ _ => rfl
  below_safe := fun _ _ _ _ => rfl
  exceeds_mono := by
    intro left more right less bound lower _ _ _ exceeds
    rw [decide_eq_true_eq] at exceeds ⊢
    omega
  below_mono := by
    intro left less right more _ _ below
    rw [decide_eq_true_eq] at below ⊢
    omega

section

variable (browser : Browser)

/-- A number of any size is compared with small ones as an integer. -/
theorem Browser.exceeds_small (typed : Int) {count inventory : Int}
    (smallCount : SmallInteger count) (smallInventory : SmallInteger inventory)
    (smallSum : SmallInteger (count + inventory)) :
    browser.exceeds typed count inventory =
      decide (inventory < typed - count) := by
  simp only [SmallInteger] at smallCount smallInventory smallSum
  have atBound :
      browser.exceeds (count + inventory) count inventory = false := by
    rw [browser.exceeds_safe _ _ _ (by simp only [Safe]; omega)
      (by simp only [Safe]; omega) (by simp only [Safe]; omega)
      (by simp only [Safe]; omega), decide_eq_false_iff_not]
    omega
  have behind :
      browser.exceeds (count + inventory + 1) count inventory = true := by
    rw [browser.exceeds_safe _ _ _ (by simp only [Safe]; omega)
      (by simp only [Safe]; omega) (by simp only [Safe]; omega)
      (by simp only [Safe]; omega), decide_eq_true_eq]
    omega
  by_cases more : inventory < typed - count
  · rw [decide_eq_true more]
    exact
      browser.exceeds_mono _ typed _ count _ inventory (by omega) le_rfl le_rfl
        behind
  · rw [decide_eq_false more, Bool.eq_false_iff]
    intro exceeds
    have atLeast :=
      browser.exceeds_mono typed (count + inventory) _ count _ inventory
        (by omega) le_rfl le_rfl exceeds
    rw [atBound] at atLeast
    cases atLeast

/-- An exact difference is compared with an inventory of any size as an
integer. -/
theorem Browser.exceeds_stock {left right bound : Int}
    (safeLeft : Safe left) (safeRight : Safe right)
    (safeDifference : Safe (left - right)) (nonneg : 0 ≤ bound) :
    browser.exceeds left right bound = decide (bound < left - right) := by
  by_cases safeBound : Safe bound
  · exact
      browser.exceeds_safe left right bound safeLeft safeRight safeBound
        safeDifference
  · have upper := safeDifference.2
    simp only [Safe] at safeBound
    have few : ¬ bound < left - right := by omega
    rw [decide_eq_false few, Bool.eq_false_iff]
    intro exceeds
    have atLimit :=
      browser.exceeds_mono _ left _ right bound (2 ^ 53) le_rfl le_rfl
        (by omega) exceeds
    rw [browser.exceeds_safe left right _ safeLeft safeRight
      (by simp [Safe]) safeDifference, decide_eq_true_eq] at atLimit
    omega

/-- A number of any size is compared with a small one as an integer. -/
theorem Browser.below_small (left : Int) {right : Int}
    (small : SmallInteger right) :
    browser.below left right = decide (left < right) := by
  simp only [SmallInteger] at small
  by_cases less : left < right
  · rw [decide_eq_true less]
    apply
      browser.below_mono (right - 1) left right right (by omega) le_rfl
    rw [browser.below_safe _ _ (by simp only [Safe]; omega)
      (by simp only [Safe]; omega), decide_eq_true_eq]
    omega
  · rw [decide_eq_false less, Bool.eq_false_iff]
    intro below
    have atBound :=
      browser.below_mono left right right right (by omega) le_rfl below
    rw [browser.below_safe right right (by simp only [Safe]; omega)
      (by simp only [Safe]; omega), decide_eq_true_eq] at atBound
    omega

end

example : parseInt " -0x1Fg".toList = some (-31) := by decide
example : parseInt "12 pieces".toList = some 12 := by decide
example : parseInt "x".toList = none := by decide

/-! ## The text of a number is read back -/

def digitChar (digit : Nat) : Char :=
  Char.ofNat (48 + digit)

theorem digitChar_spec :
    ∀ digit < 10,
      isWhite (digitChar digit) = false ∧
        digitValue 10 (digitChar digit) = some digit ∧
        digitChar digit ∉ ['-', '+', 'x', 'X'] := by
  decide

theorem numeral_eq (value : Int) :
    numeral value =
      (if value < 0 then ['-'] else []) ++
        (decimalDigits value.natAbs).map digitChar := by
  have digits :
      (decimalDigits value.natAbs).map
          (fun digit => Char.ofNat (digitByte digit).toNat) =
        (decimalDigits value.natAbs).map digitChar := by
    apply List.map_congr_left
    intro digit member
    rw [toNat_digitByte (decimalDigits_lt member)]
    rfl
  simp only [numeral, decimal, List.map_append, List.map_map]
  rw [← digits]
  split <;> rfl

theorem foldl_digitChar
    {digits : List Nat} (small : ∀ digit ∈ digits, digit < 10)
    (start : Nat) :
    (digits.map digitChar).foldl
        (fun value c => 10 * value + (digitValue 10 c).getD 0) start =
      digits.foldl (fun value digit => 10 * value + digit) start := by
  induction digits generalizing start with
  | nil =>
      rfl
  | cons digit rest inductionHypothesis =>
      have value : digitValue 10 (digitChar digit) = some digit :=
        (digitChar_spec digit (small digit (List.mem_cons_self ..))).2.1
      simp only [List.map_cons, List.foldl_cons, value, Option.getD_some]
      exact
        inductionHypothesis
          (fun later member => small later (List.mem_cons_of_mem _ member)) _

theorem parseUnsigned_decimalDigits (value : Nat) :
    parseUnsigned ((decimalDigits value).map digitChar) = some value := by
  have small : ∀ digit ∈ decimalDigits value, digit < 10 :=
    fun digit member => decimalDigits_lt member
  have isDigitChar :
      ∀ c ∈ (decimalDigits value).map digitChar,
        (digitValue 10 c).isSome = true ∧ c ∉ ['-', '+', 'x', 'X'] := by
    intro c member
    obtain ⟨digit, digitMember, rfl⟩ := List.mem_map.mp member
    obtain ⟨_, read, other⟩ := digitChar_spec digit (small digit digitMember)
    exact ⟨by rw [read]; rfl, other⟩
  have nonempty : (decimalDigits value).map digitChar ≠ [] := by
    simpa using decimalDigits_ne_nil value
  have read :
      parseDigits 10 ((decimalDigits value).map digitChar) = some value := by
    have whole :
        ((decimalDigits value).map digitChar).takeWhile
            (fun c => (digitValue 10 c).isSome) =
          (decimalDigits value).map digitChar := by
      rw [List.takeWhile_eq_self_iff]
      exact fun c member => (isDigitChar c member).1
    simp only [parseDigits, whole, List.isEmpty_eq_false_iff.mpr nonempty,
      Bool.false_eq_true, if_false]
    rw [foldl_digitChar small, decimalDigits_foldl]
  cases shape : (decimalDigits value).map digitChar with
  | nil =>
      exact absurd shape nonempty
  | cons first rest =>
      rw [shape] at isDigitChar read
      cases rest with
      | nil =>
          rw [← read]
          simp [parseUnsigned]
      | cons second rest =>
          have notHex : second ≠ 'x' ∧ second ≠ 'X' := by
            have other := (isDigitChar second (by simp)).2
            simp only [List.mem_cons, not_or] at other
            exact ⟨other.2.2.1, other.2.2.2.1⟩
          rw [← read]
          simp [parseUnsigned, notHex]

/-- The text of an integer is read back by `parseInt`. -/
theorem parseInt_numeral (value : Int) :
    parseInt (numeral value) = some value := by
  obtain ⟨first, rest, shape⟩ :=
    List.exists_cons_of_ne_nil (decimalDigits_ne_nil value.natAbs)
  have small : first < 10 := by
    apply @decimalDigits_lt value.natAbs
    rw [shape]
    exact List.mem_cons_self ..
  have unsigned := parseUnsigned_decimalDigits value.natAbs
  obtain ⟨notWhite, _, other⟩ := digitChar_spec first small
  rw [numeral_eq]
  by_cases negative : value < 0
  · have minus : isWhite '-' = false := by decide
    have exact : -(value.natAbs : Int) = value := by omega
    simp only [negative, if_true, List.singleton_append, parseInt,
      List.dropWhile_cons, minus, Bool.false_eq_true, if_false, unsigned]
    exact congrArg some exact
  · have exact : (value.natAbs : Int) = value := by omega
    simp only [List.mem_cons, not_or] at other
    rw [shape, List.map_cons] at unsigned
    simp only [negative, if_false, List.nil_append, shape, List.map_cons,
      parseInt, List.dropWhile_cons, notWhite, Bool.false_eq_true]
    split
    next minus => exact absurd (List.cons.inj minus).1 other.1
    next plus => exact absurd (List.cons.inj plus).1 other.2.1
    next =>
      rw [unsigned]
      exact congrArg some exact

theorem numeral_injective {first second : Int}
    (same : numeral first = numeral second) : first = second := by
  have read := congrArg parseInt same
  rw [parseInt_numeral, parseInt_numeral] at read
  exact Option.some.inj read

end LtlsKitting.Client
