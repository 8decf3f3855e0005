import LtlsKitting.Client.Numbers
import LtlsKitting.Formats.Rounding

/-!
# Floating-point numbers

`Double` holds the numbers that the page computes from parsed integers: they
are integers of 53 significant bits, infinite, or not a number.  A number is
written with the fewest digits that are read back as it.
-/

namespace LtlsKitting.Client

open LtlsKitting.Php LtlsKitting.Formats

/-- From 2^1024 on a number is infinite. -/
def overflow : Nat := (2 ^ 256) ^ 4

inductive Double where
  | finite (value : Int) (inRange : value.natAbs < overflow)
  | infinity (negative : Bool)
  | nan

namespace Double

/-- The floating-point number next to an integer. -/
def ofInt (value : Int) : Double :=
  if inRange : (roundSigned 53 value).natAbs < overflow then
    finite (roundSigned 53 value) inRange
  else
    infinity (value < 0)

def sub : Double → Double → Double
  | finite left _, finite right _ => ofInt (left - right)
  | infinity negative, finite _ _ => infinity negative
  | finite _ _, infinity negative => infinity !negative
  | infinity left, infinity right => if left = right then nan else infinity left
  | _, _ => nan

/-- The place of a number in the order of all numbers. -/
def key : Double → Int
  | finite value _ => value
  | infinity negative => if negative then -overflow else overflow
  | nan => 0

def isNaN : Double → Bool
  | nan => true
  | _ => false

/-- The comparison of two numbers; none is true of what is not a number. -/
def less (left right : Double) : Bool :=
  !left.isNaN && !right.isNaN && decide (left.key < right.key)

/-! ## The text of a number -/

/-- The multiple of a power of ten that is nearest to a number, if it is read
back as this number; of two, the one with the even digit. -/
def multipleAt (size zeros : Nat) : Option Nat :=
  let unit := 10 ^ zeros
  let low := size / unit
  let rest := size % unit
  let nearest :=
    if unit < 2 * rest ∨ unit = 2 * rest ∧ low % 2 = 1 then
      (low + 1) * unit
    else
      low * unit
  if roundBits 53 nearest = size then some nearest else none

/-- The multiple of the highest power of ten, at most the given one. -/
def shortest (size : Nat) : Nat → Nat
  | 0 => size
  | zeros + 1 =>
      match multipleAt size (zeros + 1) with
      | some written => written
      | none => shortest size zeros

/-- The integer whose digits are written for a number. -/
def written (size : Nat) : Nat :=
  if size ≤ 2 ^ 53 then size else shortest size 309

/-- The text of a number from 10^21 on: the digits up to the trailing zeros,
with a point behind the first one, and the exponent. -/
def exponential (size : Nat) : Text :=
  let digits := numeral size
  let fraction :=
    ((digits.drop 1).reverse.dropWhile (fun c => c == '0')).reverse
  digits.take 1 ++ (if fraction.isEmpty then [] else '.' :: fraction) ++
    "e+".toList ++ numeral (digits.length - 1 : Nat)

def sizeText (size : Nat) : Text :=
  if written size < 10 ^ 21 then
    numeral (written size)
  else
    exponential (written size)

def text : Double → Text
  | finite value _ =>
      if value < 0 then '-' :: sizeText value.natAbs else sizeText value.natAbs
  | infinity negative => (if negative then "-Infinity" else "Infinity").toList
  | nan => "NaN".toList

/-- What the server decodes from a posted number: an integer of 64 bits if its
digits are one, else a floating-point number. -/
def document : Double → Json
  | finite value _ =>
      let size : Int := written value.natAbs
      let digits := if value < 0 then -size else size
      if minInt ≤ digits ∧ digits ≤ maxInt then
        .int digits
      else
        .float (value.bmod (2 ^ 64)) false
  | _ => .null

/-! ## Integers up to 2^53 -/

theorem roundSigned_safe {value : Int} (safe : Safe value) :
    roundSigned 53 value = value := by
  simp only [Safe] at safe
  exact roundSigned_of_le (by decide) (by omega)

theorem inRange_of_safe {value : Int} (safe : Safe value) :
    value.natAbs < overflow := by
  simp only [Safe] at safe
  have bound : 2 ^ 53 < overflow := by decide
  omega

theorem ofInt_of_safe {value : Int} (safe : Safe value) :
    ofInt value = finite value (inRange_of_safe safe) := by
  simp [ofInt, roundSigned_safe safe, inRange_of_safe safe]

theorem written_of_safe {value : Int} (safe : Safe value) :
    written value.natAbs = value.natAbs := by
  simp only [Safe] at safe
  rw [written, if_pos (by omega)]

theorem text_of_safe {value : Int} (safe : Safe value) :
    (ofInt value).text = numeral value := by
  have short : value.natAbs < 10 ^ 21 := by
    simp only [Safe] at safe
    omega
  have digits : numeral (value.natAbs : Int) =
      (decimalDigits value.natAbs).map digitChar := by
    rw [numeral_eq, if_neg (by omega), Int.natAbs_natCast]
    rfl
  simp only [ofInt_of_safe safe, text, sizeText, written_of_safe safe, short,
    if_true, digits]
  rw [numeral_eq]
  split <;> rfl

theorem document_of_safe {value : Int} (safe : Safe value) :
    (ofInt value).document = .int value := by
  have digits :
      (if value < 0 then -(value.natAbs : Int) else value.natAbs) = value := by
    split <;> omega
  have bounds : minInt ≤ value ∧ value ≤ maxInt := by
    simp only [Safe] at safe
    simp only [minInt, maxInt]
    omega
  simp only [ofInt_of_safe safe, document, written_of_safe safe, digits]
  rw [if_pos bounds]

/-! ## Monotony -/

theorem isNaN_ofInt (value : Int) : (ofInt value).isNaN = false := by
  simp only [ofInt]
  split <;> rfl

theorem roundSigned_sign (value : Int) :
    (value < 0 → roundSigned 53 value ≤ 0) ∧
      (¬ value < 0 → 0 ≤ roundSigned 53 value) := by
  constructor
  · intro negative
    rw [roundSigned, if_pos negative]
    omega
  · intro nonnegative
    rw [roundSigned, if_neg nonnegative]
    omega

theorem key_ofInt (value : Int) :
    (ofInt value).key =
      max (-(overflow : Int))
        (min (overflow : Int) (roundSigned 53 value)) := by
  obtain ⟨negative, nonnegative⟩ := roundSigned_sign value
  simp only [ofInt]
  split
  next inRange =>
    simp only [key]
    omega
  next beyond =>
    by_cases below : value < 0
    · have rounded := negative below
      simp only [key, below, decide_true, if_true]
      omega
    · have rounded := nonnegative below
      simp only [key, below, decide_false, Bool.false_eq_true, if_false]
      omega

theorem key_ofInt_mono {small large : Int} (ordered : small ≤ large) :
    (ofInt small).key ≤ (ofInt large).key := by
  have rounded := @roundSigned_mono 53 (by decide) _ _ ordered
  rw [key_ofInt, key_ofInt]
  omega

theorem abs_key_le (number : Double) :
    -(overflow : Int) ≤ number.key ∧ number.key ≤ overflow := by
  cases number with
  | finite value inRange =>
      simp only [key]
      omega
  | infinity negative =>
      simp only [key]
      split <;> omega
  | nan =>
      simp only [key]
      omega

theorem less_iff (left right : Double) :
    left.less right = true ↔
      left.isNaN = false ∧ right.isNaN = false ∧ left.key < right.key := by
  simp [less, and_assoc]

/-- A number that is not the lowest one. -/
def Above (number : Double) : Prop :=
  number.isNaN = false ∧ -(overflow : Int) < number.key

theorem eq_lowest {number : Double} (isNumber : number.isNaN = false)
    (low : number.key ≤ -overflow) : number = infinity true := by
  cases number with
  | finite value inRange =>
      simp only [key] at low
      omega
  | infinity negative =>
      cases negative with
      | true => rfl
      | false =>
          have positive : (overflow : Int) > 0 := by decide
          simp only [key, Bool.false_eq_true, if_false] at low
          omega
  | nan => cases isNumber

theorem not_above_lowest_sub (right : Double) :
    ¬ ((infinity true).sub right).Above := by
  rintro ⟨known, notLowest⟩
  cases right with
  | finite value inRange => simp [sub, key] at notLowest
  | infinity negative =>
      cases negative with
      | true => cases known
      | false => simp [sub, key] at notLowest
  | nan => cases known

theorem not_above_sub_highest (left : Double) :
    ¬ (left.sub (infinity false)).Above := by
  rintro ⟨known, notLowest⟩
  cases left with
  | finite value inRange => simp [sub, key] at notLowest
  | infinity negative =>
      cases negative with
      | true => simp [sub, key] at notLowest
      | false => cases known
  | nan => cases known

/-- What is less than the highest number is not the number to subtract from
it. -/
theorem highest_sub {right : Double} (isNumber : right.isNaN = false)
    (notHighest : right ≠ infinity false) :
    (infinity false).sub right = infinity false := by
  cases right with
  | finite value inRange => rfl
  | infinity negative =>
      cases negative with
      | true => rfl
      | false => exact absurd rfl notHighest
  | nan => cases isNumber

theorem sub_nan (left : Double) : left.sub nan = nan := by
  cases left <;> rfl

/-- A difference grows with its minuend. -/
theorem sub_mono {left more right : Double} (isNumber : more.isNaN = false)
    (ordered : left.key ≤ more.key) (above : (left.sub right).Above) :
    (more.sub right).isNaN = false ∧
      (left.sub right).key ≤ (more.sub right).key := by
  have upper := (abs_key_le (left.sub right)).2
  have notHighest : right ≠ infinity false := by
    rintro rfl
    exact not_above_sub_highest left above
  have rightNumber : right.isNaN = false := by
    cases right with
    | nan =>
        rw [sub_nan] at above
        cases above.1
    | finite value inRange => rfl
    | infinity negative => rfl
  have leftNumber : left.isNaN = false := by
    cases left with
    | nan => cases above.1
    | finite value inRange => rfl
    | infinity negative => rfl
  cases more with
  | nan => cases isNumber
  | infinity negative =>
      cases negative with
      | true =>
          rw [eq_lowest leftNumber (by simpa [key] using ordered)] at above
          exact absurd above (not_above_lowest_sub right)
      | false =>
          rw [highest_sub rightNumber notHighest]
          exact ⟨rfl, upper⟩
  | finite large largeRange =>
      cases left with
      | nan => cases leftNumber
      | infinity negative =>
          cases negative with
          | true => exact absurd above (not_above_lowest_sub right)
          | false =>
              simp only [key, Bool.false_eq_true, if_false] at ordered
              omega
      | finite small smallRange =>
          cases right with
          | nan => cases rightNumber
          | infinity negative => exact ⟨rfl, le_rfl⟩
          | finite value inRange =>
              refine ⟨isNaN_ofInt _, key_ofInt_mono ?_⟩
              simp only [key] at ordered
              omega

def neg : Double → Double
  | finite value inRange => finite (-value) (by rwa [Int.natAbs_neg])
  | infinity negative => infinity !negative
  | nan => nan

theorem key_neg (number : Double) : number.neg.key = -number.key := by
  cases number with
  | finite value inRange => rfl
  | infinity negative => cases negative <;> simp [neg, key]
  | nan => rfl

theorem isNaN_neg (number : Double) : number.neg.isNaN = number.isNaN := by
  cases number <;> rfl

theorem sub_eq_neg_sub (left right : Double) :
    left.sub right = right.neg.sub left.neg := by
  cases left with
  | nan => cases right <;> rfl
  | finite small smallRange =>
      cases right with
      | nan => rfl
      | infinity negative => rfl
      | finite large largeRange =>
          simp only [neg, sub]
          congr 1
          omega
  | infinity leftNegative =>
      cases right with
      | nan => rfl
      | finite value inRange => simp [neg, sub]
      | infinity rightNegative =>
          cases leftNegative <;> cases rightNegative <;> rfl

/-- A difference shrinks with its subtrahend. -/
theorem sub_anti {left fewer right : Double}
    (isNumber : fewer.isNaN = false) (ordered : fewer.key ≤ right.key)
    (above : (left.sub right).Above) :
    (left.sub fewer).isNaN = false ∧
      (left.sub right).key ≤ (left.sub fewer).key := by
  rw [sub_eq_neg_sub left right] at above ⊢
  rw [sub_eq_neg_sub left fewer]
  apply sub_mono
  · rw [isNaN_neg]
    exact isNumber
  · rw [key_neg, key_neg]
    omega
  · exact above

/-- What exceeds a number exceeds every lower one, also if the minuend grows
and the subtrahend shrinks. -/
theorem less_sub_mono {bound lower left more right fewer : Double}
    (boundNumber : lower.isNaN = false) (moreNumber : more.isNaN = false)
    (fewerNumber : fewer.isNaN = false) (bounds : lower.key ≤ bound.key)
    (minuend : left.key ≤ more.key) (subtrahend : fewer.key ≤ right.key)
    (exceeds : bound.less (left.sub right) = true) :
    lower.less (more.sub fewer) = true := by
  obtain ⟨_, known, less⟩ := (less_iff ..).mp exceeds
  have lowest := (abs_key_le bound).1
  have grown :=
    @sub_mono left more right moreNumber minuend ⟨known, by omega⟩
  have shrunk :=
    @sub_anti more fewer right fewerNumber subtrahend ⟨grown.1, by omega⟩
  exact (less_iff ..).mpr ⟨boundNumber, shrunk.1, by omega⟩

end Double

/-- A browser that computes with floating-point numbers. -/
def Browser.double : Browser where
  posted := fun value => (Double.ofInt value).document
  shown := fun value => (Double.ofInt value).text
  exceeds := fun left right bound =>
    (Double.ofInt bound).less
      ((Double.ofInt left).sub (Double.ofInt right))
  below := fun left right => (Double.ofInt left).less (Double.ofInt right)
  posted_safe := fun _ safe => Double.document_of_safe safe
  shown_safe := fun _ safe => Double.text_of_safe safe
  exceeds_safe := by
    intro left right bound safeLeft safeRight safeBound safeDifference
    simp only [Double.ofInt_of_safe safeLeft, Double.ofInt_of_safe safeRight,
      Double.ofInt_of_safe safeBound, Double.sub,
      Double.ofInt_of_safe safeDifference]
    simp only [Double.less, Double.isNaN, Double.key, Bool.not_false,
      Bool.true_and]
    rfl
  below_safe := by
    intro left right safeLeft safeRight
    simp only [Double.ofInt_of_safe safeLeft, Double.ofInt_of_safe safeRight]
    simp only [Double.less, Double.isNaN, Double.key, Bool.not_false,
      Bool.true_and]
    rfl
  exceeds_mono := by
    intro left more right fewer bound lower minuend subtrahend bounds exceeds
    exact
      Double.less_sub_mono (Double.isNaN_ofInt _) (Double.isNaN_ofInt _)
        (Double.isNaN_ofInt _) (Double.key_ofInt_mono bounds)
        (Double.key_ofInt_mono minuend) (Double.key_ofInt_mono subtrahend)
        exceeds
  below_mono := by
    intro left fewer right more lowered raised below
    have ordered := ((Double.less_iff ..).mp below).2.2
    have lower := Double.key_ofInt_mono lowered
    have upper := Double.key_ofInt_mono raised
    exact
      (Double.less_iff ..).mpr
        ⟨Double.isNaN_ofInt _, Double.isNaN_ofInt _, by omega⟩

/-- The fewest digits that are read back as 2^60, and as 2^70. -/
example :
    Browser.double.shown (2 ^ 60) = "1152921504606847000".toList ∧
      Browser.double.shown (2 ^ 70) = "1.1805916207174113e+21".toList := by
  decide +kernel

end LtlsKitting.Client
