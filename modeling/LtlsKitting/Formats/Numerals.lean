import Mathlib.Data.List.Nodup
import Mathlib.Data.Nat.Digits.Lemmas

/-!
# Numerals over an alphabet

The symbols of an alphabet are the digits of a positional system.  A number is
written with its highest digit first and without leading zeros; a text is read
from its end, and is refused if it has a symbol that is not in the alphabet.
Writing and reading are inverse to each other on texts without leading zeros.
-/

namespace LtlsKitting.Formats

universe u

variable {α : Type u}

/-- Different symbols, at least two. -/
structure Alphabet (α : Type u) where
  symbols : List α
  distinct : symbols.Nodup
  large : 1 < symbols.length

namespace Alphabet

variable (alphabet : Alphabet α)

def base : Nat :=
  alphabet.symbols.length

def symbol (digit : Nat) : α :=
  alphabet.symbols.get
    ⟨digit % alphabet.symbols.length,
      Nat.mod_lt _ (Nat.zero_lt_of_lt alphabet.large)⟩

/-- Write digits in front of a text, from the lowest one on, in at most so
many steps. -/
def writeLoop : Nat → Nat → List α → List α
  | 0, value, written => alphabet.symbol value :: written
  | steps + 1, value, written =>
      if alphabet.base ≤ value then
        writeLoop steps (value / alphabet.base)
          (alphabet.symbol (value % alphabet.base) :: written)
      else
        alphabet.symbol value :: written

def write (value : Nat) : List α :=
  alphabet.writeLoop value value []

variable [DecidableEq α]

/-- Add up digits, the lowest first, with the multiplier of the next one. -/
def readLoop : List α → Nat → Nat → Option Nat
  | [], value, _ => some value
  | first :: rest, value, multiplier =>
      (alphabet.symbols.idxOf? first).bind (fun column =>
        readLoop rest (value + column * multiplier)
          (multiplier * alphabet.base))

def read (text : List α) : Option Nat :=
  alphabet.readLoop text.reverse 0 1

/-- The text is not empty, and has no leading zero, unless it is a zero. -/
def Canonical (text : List α) : Prop :=
  text ≠ [] ∧ (text.head? = some (alphabet.symbol 0) → text.length = 1)

instance (text : List α) : Decidable (alphabet.Canonical text) :=
  inferInstanceAs
    (Decidable
      (text ≠ [] ∧
        (text.head? = some (alphabet.symbol 0) → text.length = 1)))

/-! ## Symbols and digits -/

section

variable {alphabet : Alphabet α} {digit value : Nat} {text : List α}

theorem idxOf?_symbol (small : digit < alphabet.base) :
    alphabet.symbols.idxOf? (alphabet.symbol digit) = some digit := by
  have inside : digit % alphabet.symbols.length = digit :=
    Nat.mod_eq_of_lt small
  rw [List.idxOf?_eq_some_iff]
  refine ⟨small, ?_, ?_⟩
  · simp only [symbol, inside]
    rfl
  · intro earlier before same
    have isSame : earlier = digit := by
      apply (List.Nodup.getElem_inj_iff alphabet.distinct).mp
      simpa [symbol, inside] using same
    omega

theorem idxOf?_eq_some {first : α}
    (found : alphabet.symbols.idxOf? first = some digit) :
    digit < alphabet.base ∧ alphabet.symbol digit = first := by
  rw [List.idxOf?_eq_some_iff] at found
  obtain ⟨small, isFirst, _⟩ := found
  refine ⟨small, ?_⟩
  have inside : digit % alphabet.symbols.length = digit :=
    Nat.mod_eq_of_lt small
  rw [← isFirst]
  simp [symbol, inside]

theorem symbol_inj {other : Nat}
    (small : digit < alphabet.base) (smallToo : other < alphabet.base)
    (same : alphabet.symbol digit = alphabet.symbol other) : digit = other := by
  have found := idxOf?_symbol small
  rw [same, idxOf?_symbol smallToo] at found
  exact (Option.some.inj found).symm

/-! ## Reading -/

theorem readLoop_symbols
    {digits : List Nat} (small : ∀ digit ∈ digits, digit < alphabet.base)
    (value multiplier : Nat) :
    alphabet.readLoop (digits.map alphabet.symbol) value multiplier =
      some (value + multiplier * Nat.ofDigits alphabet.base digits) := by
  induction digits generalizing value multiplier with
  | nil => simp [readLoop]
  | cons digit rest inductionHypothesis =>
      have later :=
        inductionHypothesis
          (fun other member => small other (List.mem_cons_of_mem _ member))
          (value + digit * multiplier) (multiplier * alphabet.base)
      rw [List.map_cons, readLoop, idxOf?_symbol (small digit (List.mem_cons_self ..)),
        Option.bind_some, later, Nat.ofDigits_cons]
      congr 1
      ring

theorem readLoop_eq_some {multiplier result : Nat}
    (isRead : alphabet.readLoop text value multiplier = some result) :
    ∃ digits : List Nat,
      (∀ digit ∈ digits, digit < alphabet.base) ∧
        digits.map alphabet.symbol = text := by
  induction text generalizing value multiplier with
  | nil =>
      refine ⟨[], ?_, rfl⟩
      intro digit member
      cases member
  | cons first rest inductionHypothesis =>
      rw [readLoop] at isRead
      cases found : alphabet.symbols.idxOf? first with
      | none =>
          rw [found] at isRead
          cases isRead
      | some digit =>
          rw [found, Option.bind_some] at isRead
          obtain ⟨small, isFirst⟩ := idxOf?_eq_some found
          obtain ⟨digits, others, same⟩ := inductionHypothesis isRead
          refine ⟨digit :: digits, ?_, ?_⟩
          · intro other member
            rcases List.mem_cons.mp member with rfl | later
            · exact small
            · exact others other later
          · rw [List.map_cons, isFirst, same]

/-- A text is read as the number of its digits, the lowest first. -/
theorem read_eq_some_iff :
    alphabet.read text = some value ↔
      ∃ digits : List Nat,
        (∀ digit ∈ digits, digit < alphabet.base) ∧
          text = (digits.map alphabet.symbol).reverse ∧
          value = Nat.ofDigits alphabet.base digits := by
  constructor
  · intro isRead
    obtain ⟨digits, small, same⟩ := readLoop_eq_some isRead
    refine ⟨digits, small, ?_, ?_⟩
    · rw [same, List.reverse_reverse]
    · rw [read, ← same, readLoop_symbols small, Nat.zero_add, Nat.one_mul,
        Option.some.injEq] at isRead
      exact isRead.symm
  · rintro ⟨digits, small, rfl, rfl⟩
    rw [read, List.reverse_reverse, readLoop_symbols small, Nat.zero_add,
      Nat.one_mul]

/-! ## Writing -/

omit [DecidableEq α] in
/-- The digits are written, the highest first. -/
theorem writeLoop_eq {steps : Nat} (enough : value ≤ steps)
    (written : List α) :
    alphabet.writeLoop steps value written =
      ((if value = 0 then [0] else Nat.digits alphabet.base value).map
        alphabet.symbol).reverse ++ written := by
  have large : 1 < alphabet.base := alphabet.large
  induction steps generalizing value written with
  | zero =>
      have zero : value = 0 := by omega
      rw [zero]
      rfl
  | succ steps inductionHypothesis =>
      rw [writeLoop]
      split
      next several =>
        have positive : 0 < value := by omega
        have smaller : value / alphabet.base < value :=
          Nat.div_lt_self positive large
        have rest : value / alphabet.base ≠ 0 := by
          have atLeast := Nat.div_pos several (by omega : 0 < alphabet.base)
          omega
        rw [inductionHypothesis (by omega), if_neg rest,
          if_neg (by omega : value ≠ 0), Nat.digits_def' large positive,
          List.map_cons, List.reverse_cons, List.append_assoc]
        rfl
      next one =>
        split
        next zero =>
          rw [zero]
          rfl
        next nonzero =>
          rw [Nat.digits_of_lt _ _ nonzero (by omega)]
          rfl

/-- A number is written as a text exactly if the text is read as the number
and has no superfluous zeros. -/
theorem write_eq_iff :
    alphabet.write value = text ↔
      alphabet.read text = some value ∧ alphabet.Canonical text := by
  have large : 1 < alphabet.base := alphabet.large
  have isWritten :
      alphabet.write value =
        ((if value = 0 then [0] else Nat.digits alphabet.base value).map
          alphabet.symbol).reverse := by
    rw [write, writeLoop_eq (Nat.le_refl value), List.append_nil]
  rw [isWritten]
  constructor
  · rintro rfl
    constructor
    · rw [read_eq_some_iff]
      refine ⟨_, ?_, rfl, ?_⟩
      · intro digit member
        split at member
        next =>
          rw [List.mem_singleton.mp member]
          omega
        next => exact Nat.digits_lt_base large member
      · split
        next zero =>
          rw [zero]
          rfl
        next => exact (Nat.ofDigits_digits _ _).symm
    · split
      next => exact ⟨List.cons_ne_nil _ _, fun _ => rfl⟩
      next nonzero =>
        have nonempty : Nat.digits alphabet.base value ≠ [] :=
          Nat.digits_ne_nil_iff_ne_zero.mpr nonzero
        refine ⟨?_, ?_⟩
        · simpa using nonempty
        · intro leading
          rw [List.head?_reverse, List.getLast?_map,
            List.getLast?_eq_some_getLast nonempty, Option.map_some,
            Option.some.injEq] at leading
          have isZero :=
            symbol_inj
              (Nat.digits_lt_base large (List.getLast_mem nonempty))
              (by omega : 0 < alphabet.base) leading
          exact absurd isZero (Nat.getLast_digit_ne_zero _ nonzero)
  · rintro ⟨isRead, nonempty, leading⟩
    obtain ⟨digits, small, rfl, rfl⟩ := read_eq_some_iff.mp isRead
    congr 2
    have someDigit : digits ≠ [] := by
      rintro rfl
      exact nonempty rfl
    by_cases zero : digits.getLast someDigit = 0
    · have single : digits.length = 1 := by
        have isLeading :
            ((digits.map alphabet.symbol).reverse).head? =
              some (alphabet.symbol 0) := by
          rw [List.head?_reverse, List.getLast?_map,
            List.getLast?_eq_some_getLast someDigit, zero, Option.map_some]
        simpa using leading isLeading
      obtain ⟨digit, rfl⟩ := List.length_eq_one_iff.mp single
      have isZero : digit = 0 := zero
      rw [isZero]
      rfl
    · have positive : Nat.ofDigits alphabet.base digits ≠ 0 := by
        intro vanishes
        have same :=
          Nat.digits_ofDigits alphabet.base large digits small
            (fun _ => zero)
        rw [vanishes, Nat.digits_zero] at same
        exact someDigit same.symm
      rw [if_neg positive]
      exact
        Nat.digits_ofDigits alphabet.base large digits small (fun _ => zero)

end

end Alphabet

end LtlsKitting.Formats
