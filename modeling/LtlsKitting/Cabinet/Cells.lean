import LtlsKitting.Cabinet.Strip

/-!
# The cells that a location names

A location names a cell by the two digits of its row, one separator and the
letter of its column.  `parsePosition` reads the row with `int`, which also
takes a sign or a blank, it indexes the column from the end if the row is not
positive, and it takes everything that is not the first column for the second
one.  So it accepts exactly the locations whose first two bytes are read as a
row from -1 to 2.
-/

namespace LtlsKitting.Cabinet

open LtlsKitting.Php

/-- The first light of a cell; the rows are counted from one. -/
def cellLight (row column : Nat) : Option Nat :=
  (locList[column]?).bind (fun rows => rows[row - 1]?)

def columnOf (letter : UInt8) : Option Nat :=
  if letter = 65 then some 0 else if letter = 66 then some 1 else none

/-- The location is the row in two digits, one separator and the letter of
the column, and the column has that row. -/
structure NamesCell (position : Bytes) (row column : Nat) : Prop where
  spelled :
    ∃ tens ones separator letter,
      position = [tens, ones, separator, letter] ∧
        isDigit tens = true ∧ isDigit ones = true ∧
          digitsValue [tens, ones] = row ∧ columnOf letter = some column
  positive : 1 ≤ row
  inColumn : row ≤ (locList.getD column []).length

def isRowDigit (byte : UInt8) : Bool :=
  byte == 48 || byte == 49 || byte == 50

/-- The texts of at most two bytes that `int` reads as a number from -1 to 2:
a digit alone, behind a zero, a plus or a blank, before a blank, or behind a
minus. -/
def readsAsRow : Bytes → Bool
  | [digit] => isRowDigit digit
  | [first, second] =>
      ((first == 48 || first == 43 || isSpace first) && isRowDigit second) ||
        (isRowDigit first && isSpace second) ||
        (first == 45 && (second == 48 || second == 49))
  | _ => false

/-! ## Reading the row -/

/-- The row is found in a column, possibly from its end. -/
def InReach (row : Int) : Prop :=
  -1 ≤ row ∧ row ≤ 2

instance (row : Int) : Decidable (InReach row) :=
  inferInstanceAs (Decidable (_ ∧ _))

theorem isSpace_iff (byte : UInt8) :
    isSpace byte = true ↔
      byte.toNat = 32 ∨ (9 ≤ byte.toNat ∧ byte.toNat ≤ 13) := by
  simp [isSpace, UInt8.le_iff_toNat_le, ← UInt8.toNat_inj]

theorem isRowDigit_iff (byte : UInt8) :
    isRowDigit byte = true ↔ 48 ≤ byte.toNat ∧ byte.toNat ≤ 50 := by
  simp only [isRowDigit, Bool.or_eq_true, beq_iff_eq, ← UInt8.toNat_inj]
  have bounds :
      (48 : UInt8).toNat = 48 ∧ (49 : UInt8).toNat = 49 ∧
        (50 : UInt8).toNat = 50 := by
    decide
  omega

/-- A blank on either side of a single byte is dropped. -/
theorem pythonInt_blank_first {first : UInt8} (blank : isSpace first = true)
    (second : UInt8) : pythonInt [first, second] = pythonInt [second] := by
  simp [pythonInt, blank]

theorem pythonInt_blank_second {first second : UInt8}
    (plain : isSpace first = false) (blank : isSpace second = true) :
    pythonInt [first, second] = pythonInt [first] := by
  simp [pythonInt, plain, blank]

theorem pythonInt_plus {second : UInt8} (plain : isSpace second = false) :
    pythonInt [43, second] = (pythonDigits [second]).map Int.ofNat := by
  have plus : isSpace 43 = false := by decide
  simp [pythonInt, plain, plus]

theorem pythonInt_minus {second : UInt8} (plain : isSpace second = false) :
    pythonInt [45, second] =
      (pythonDigits [second]).map (fun value => -Int.ofNat value) := by
  have minus : isSpace 45 = false := by decide
  simp [pythonInt, plain, minus]

theorem pythonInt_pair {first second : UInt8}
    (plain : isSpace first = false) (plainSecond : isSpace second = false)
    (notPlus : first ≠ 43) (notMinus : first ≠ 45) :
    pythonInt [first, second] =
      (pythonDigits [first, second]).map Int.ofNat := by
  have stripped :
      ((([first, second].dropWhile isSpace).reverse).dropWhile
          isSpace).reverse = [first, second] := by
    simp [plain, plainSecond]
  rw [pythonInt, stripped]
  split
  · exact absurd (List.cons.inj ‹_›).1 notPlus
  · exact absurd (List.cons.inj ‹_›).1 notMinus
  · rfl

theorem pythonInt_single (byte : UInt8) :
    pythonInt [byte] = (pythonDigits [byte]).map Int.ofNat := by
  by_cases blank : isSpace byte = true
  · have notDigit : isDigit byte = false := by
      rw [isSpace_iff] at blank
      rw [← Bool.not_eq_true, isDigit_iff]
      omega
    simp [pythonInt, blank, pythonDigits, notDigit]
  · have stripped :
        ((([byte].dropWhile isSpace).reverse).dropWhile isSpace).reverse =
          [byte] := by
      simp [blank]
    rw [pythonInt, stripped]
    -- a sign alone has no digits
    split
    next digits equal =>
      obtain ⟨rfl, rfl⟩ := List.cons.inj equal
      rfl
    next digits equal =>
      obtain ⟨rfl, rfl⟩ := List.cons.inj equal
      rfl
    next =>
      rfl

theorem reach_digits {text : Bytes} (given : text ≠ []) (sign : Nat → Int) :
    (∃ row, (pythonDigits text).map sign = some row ∧ InReach row) ↔
      text.all isDigit = true ∧ InReach (sign (digitsValue text)) := by
  by_cases digits : text.all isDigit = true
  · simp [pythonDigits, given, digits]
  · simp [pythonDigits, digits]

theorem reach_single (byte : UInt8) :
    (∃ row, pythonInt [byte] = some row ∧ InReach row) ↔
      isRowDigit byte = true := by
  rw [pythonInt_single, reach_digits (List.cons_ne_nil byte []),
    isRowDigit_iff]
  simp only [List.all_cons, List.all_nil, Bool.and_true, isDigit_iff,
    digitsValue, List.foldl_cons, List.foldl_nil, InReach,
    Int.ofNat_eq_natCast]
  omega

theorem not_isRowDigit_of_isSpace {byte : UInt8}
    (blank : isSpace byte = true) : isRowDigit byte = false := by
  rw [isSpace_iff] at blank
  rw [← Bool.not_eq_true, isRowDigit_iff]
  omega

theorem ne_of_isSpace {byte other : UInt8}
    (blank : isSpace byte = true) (plain : isSpace other = false) :
    (byte == other) = false := by
  rw [beq_eq_false_iff_ne]
  rintro rfl
  rw [blank] at plain
  cases plain

/-- Two digits are read as a row from -1 to 2 if the first one is zero. -/
theorem reach_twoDigits (first second : UInt8) :
    (∃ row,
        (pythonDigits [first, second]).map Int.ofNat = some row ∧
          InReach row) ↔
      first = 48 ∧ isRowDigit second = true := by
  have zero : first = 48 ↔ first.toNat = 48 := by
    rw [← UInt8.toNat_inj]
    rfl
  rw [reach_digits (List.cons_ne_nil first [second]), isRowDigit_iff, zero]
  simp only [List.all_cons, List.all_nil, Bool.and_true, Bool.and_eq_true,
    isDigit_iff, digitsValue, List.foldl_cons, List.foldl_nil, InReach,
    Int.ofNat_eq_natCast]
  omega

/-- A digit behind a minus is read as a row from -1 to 2 if it is 0 or 1. -/
theorem reach_minus (digit : UInt8) :
    (∃ row,
        (pythonDigits [digit]).map (fun value => -Int.ofNat value) =
            some row ∧
          InReach row) ↔
      (digit == 48 || digit == 49) = true := by
  have small :
      (digit == 48 || digit == 49) = true ↔
        48 ≤ digit.toNat ∧ digit.toNat ≤ 49 := by
    simp only [Bool.or_eq_true, beq_iff_eq, ← UInt8.toNat_inj]
    have bounds : (48 : UInt8).toNat = 48 ∧ (49 : UInt8).toNat = 49 := by
      decide
    omega
  rw [reach_digits (List.cons_ne_nil digit []), small]
  simp only [List.all_cons, List.all_nil, Bool.and_true, isDigit_iff,
    digitsValue, List.foldl_cons, List.foldl_nil, InReach,
    Int.ofNat_eq_natCast]
  omega

theorem reach_pair (first second : UInt8) :
    (∃ row, pythonInt [first, second] = some row ∧ InReach row) ↔
      readsAsRow [first, second] = true := by
  by_cases blank : isSpace first = true
  · have reads : readsAsRow [first, second] = isRowDigit second := by
      have minus : (first == 45) = false := ne_of_isSpace blank (by decide)
      simp [readsAsRow, blank, not_isRowDigit_of_isSpace blank, minus]
    rw [pythonInt_blank_first blank, reach_single, reads]
  have plain : isSpace first = false := by simpa using blank
  by_cases blankSecond : isSpace second = true
  · have reads : readsAsRow [first, second] = isRowDigit first := by
      have zero : (second == 48) = false :=
        ne_of_isSpace blankSecond (by decide)
      have one : (second == 49) = false :=
        ne_of_isSpace blankSecond (by decide)
      simp [readsAsRow, blankSecond, not_isRowDigit_of_isSpace blankSecond,
        zero, one]
    rw [pythonInt_blank_second plain blankSecond, reach_single, reads]
  have plainSecond : isSpace second = false := by simpa using blankSecond
  by_cases plus : first = 43
  · subst plus
    have reads : readsAsRow [43, second] = isRowDigit second := by
      simp [readsAsRow, plainSecond]
    rw [pythonInt_plus plainSecond, reads, ← reach_single,
      pythonInt_single]
  by_cases minus : first = 45
  · subst minus
    have reads :
        readsAsRow [45, second] = (second == 48 || second == 49) := by
      have row : isRowDigit 45 = false := by decide
      simp [readsAsRow, plain, row]
    rw [pythonInt_minus plainSecond, reads, reach_minus]
  · have reads :
        readsAsRow [first, second] = true ↔
          first = 48 ∧ isRowDigit second = true := by
      simp [readsAsRow, plain, plainSecond, plus, minus]
    rw [pythonInt_pair plain plainSecond plus minus, reads, reach_twoDigits]

/-- The texts that `int` reads as a row from -1 to 2. -/
theorem readsAsRow_iff {text : Bytes} (short : text.length ≤ 2) :
    readsAsRow text = true ↔
      ∃ row, pythonInt text = some row ∧ InReach row := by
  match text, short with
  | [], _ =>
      have noRow : pythonInt [] = none := rfl
      simp [readsAsRow, noRow]
  | [byte], _ =>
      exact (reach_single byte).symm
  | [first, second], _ =>
      exact (reach_pair first second).symm

/-! ## The locations that are accepted -/

/-- A column of two rows is indexed from both ends. -/
theorem pythonIndex_isSome_iff (rows : List Nat) (two : rows.length = 2)
    (row : Int) :
    (pythonIndex rows (row - 1)).isSome = true ↔ InReach row := by
  simp only [pythonIndex, InReach, two]
  split
  · rw [isSome_getElem?, two]
    omega
  · split
    · rw [isSome_getElem?, two]
      omega
    · simp only [Option.isSome_none, Bool.false_eq_true, false_iff]
      omega

theorem parsePosition_isSome_iff (position : Bytes) :
    (parsePosition position).isSome = true ↔
      readsAsRow (position.take 2) = true := by
  have column :
      ∃ rows,
        locList[if position.drop 3 = bytes "A" then 0 else 1]? =
            some rows ∧
          rows.length = 2 := by
    split
    · exact ⟨[58, 40], rfl, rfl⟩
    · exact ⟨[87, 18], rfl, rfl⟩
  obtain ⟨rows, found, two⟩ := column
  rw [readsAsRow_iff (List.length_take_le 2 position)]
  simp only [parsePosition]
  cases read : pythonInt (position.take 2) with
  | none =>
      simp
  | some row =>
      simp only [found, Option.bind_some, Option.some.injEq, exists_eq_left']
      exact pythonIndex_isSome_iff rows two row

theorem columnOf_eq_some {letter : UInt8} {column : Nat}
    (isColumn : columnOf letter = some column) :
    (letter = 65 ∧ column = 0) ∨ (letter = 66 ∧ column = 1) := by
  simp only [columnOf] at isColumn
  split at isColumn
  next first =>
    exact Or.inl ⟨first, (Option.some.inj isColumn).symm⟩
  next =>
    split at isColumn
    next second =>
      exact Or.inr ⟨second, (Option.some.inj isColumn).symm⟩
    next =>
      cases isColumn

/-- A location that names a cell is read as that cell. -/
theorem parsePosition_of_namesCell {position : Bytes} {row column : Nat}
    (names : NamesCell position row column) :
    parsePosition position = cellLight row column := by
  obtain ⟨tens, ones, separator, letter, rfl, tensDigit, onesDigit, value,
    isColumn⟩ := names.spelled
  have positive := names.positive
  have plain := digit_not_space_not_sign tensDigit
  have plainOnes := digit_not_space_not_sign onesDigit
  have read : pythonInt [tens, ones] = some (Int.ofNat row) := by
    rw [pythonInt_pair plain.1 plainOnes.1 plain.2.2 plain.2.1]
    simp [pythonDigits, tensDigit, onesDigit, value]
  have indexed :
      ∀ rows : List Nat,
        pythonIndex rows (Int.ofNat row - 1) = rows[row - 1]? := by
    intro rows
    have position : (Int.ofNat row - 1).toNat = row - 1 := by
      simp only [Int.ofNat_eq_natCast]
      omega
    rw [pythonIndex, if_pos (by simp only [Int.ofNat_eq_natCast]; omega),
      position]
  have columnRead :
      (if [letter] = bytes "A" then 0 else 1) = column := by
    rcases columnOf_eq_some isColumn with ⟨rfl, rfl⟩ | ⟨rfl, rfl⟩
    · decide
    · decide
  simp only [parsePosition, List.take_succ_cons, List.take_zero,
    List.drop_succ_cons, List.drop_zero, read, columnRead, indexed,
    cellLight]

theorem cellLight_of_namesCell {position : Bytes} {row column : Nat}
    (names : NamesCell position row column) :
    ∃ start, cellLight row column = some start := by
  obtain ⟨tens, ones, separator, letter, _, _, _, _, isColumn⟩ :=
    names.spelled
  have positive := names.positive
  have inColumn := names.inColumn
  have rows :
      ∃ rows, locList[column]? = some rows ∧ locList.getD column [] = rows := by
    rcases columnOf_eq_some isColumn with ⟨_, rfl⟩ | ⟨_, rfl⟩
    · exact ⟨_, rfl, rfl⟩
    · exact ⟨_, rfl, rfl⟩
  obtain ⟨rows, found, isRows⟩ := rows
  rw [isRows] at inColumn
  have inside : row - 1 < rows.length := by omega
  exact ⟨rows[row - 1], by simp [cellLight, found, inside]⟩

/-- Unless the whole strip is turned off, only the lights are driven that the
location is read as. -/
theorem toggleLED_drives
    {strip : Strip} {state : Int} {position : Bytes} {led : Nat}
    (given : position ≠ []) (notOff : state ≠ 3)
    (driven :
      leftStrip (toggleLED strip state (some position)) led ≠ strip led) :
    lights position led = true := by
  have kept :
      (some position).filter (fun text => !text.isEmpty) = some position := by
    simp [Option.filter, given]
  cases read : parsePosition position with
  | none =>
      have raised :
          toggleLED strip state (some position) = .error strip := by
        simp only [toggleLED, kept, read]
      rw [raised] at driven
      exact absurd rfl driven
  | some start =>
      have set :
          ∃ green,
            toggleLED strip state (some position) =
              .ok
                (setRgbValues strip start 4 (sixteen 0) (sixteen green)
                  (sixteen 0)) := by
        by_cases lit : state = 0
        · exact ⟨0, by simp [toggleLED, kept, read, lit]⟩
        · exact ⟨255, by simp [toggleLED, kept, read, lit, notOff]⟩
      obtain ⟨green, isSet⟩ := set
      rw [isSet, leftStrip, setRgbValues_sixteen _ (by omega)] at driven
      by_cases inside : start ≤ led ∧ led < start + 4
      · exact (lights_iff position led).mpr ⟨start, read, inside⟩
      · rw [if_neg inside] at driven
        exact absurd rfl driven

/-- The script accepts a location if and only if it names a cell, reads it as
that cell and, unless it turns the whole strip off, drives no other lights. -/
structure OnlyNamedCells (position : Bytes) : Prop where
  accepts :
    (parsePosition position).isSome = true ↔
      ∃ row column, NamesCell position row column
  entry :
    ∀ row column, NamesCell position row column →
      parsePosition position = cellLight row column
  drives :
    ∀ (strip : Strip) (state : Int) (led : Nat),
      position ≠ [] → state ≠ 3 →
        leftStrip (toggleLED strip state (some position)) led ≠ strip led →
          ∃ row column start,
            NamesCell position row column ∧
              cellLight row column = some start ∧
                start ≤ led ∧ led < start + 4

/-- The locations on which the script drives only the cells that they name are
those that name one and those whose row is not read. -/
theorem onlyNamedCells_iff (position : Bytes) :
    OnlyNamedCells position ↔
      (∃ row column, NamesCell position row column) ∨
        readsAsRow (position.take 2) = false := by
  constructor
  · intro only
    by_cases reads : readsAsRow (position.take 2) = true
    · exact
        Or.inl
          (only.accepts.mp ((parsePosition_isSome_iff position).mpr reads))
    · exact Or.inr (by simpa using reads)
  · intro condition
    have accepts :
        (parsePosition position).isSome = true ↔
          ∃ row column, NamesCell position row column := by
      constructor
      · intro accepted
        rcases condition with names | refused
        · exact names
        · rw [parsePosition_isSome_iff, refused] at accepted
          cases accepted
      · rintro ⟨row, column, names⟩
        obtain ⟨start, found⟩ := cellLight_of_namesCell names
        rw [parsePosition_of_namesCell names, found]
        rfl
    refine ⟨accepts, fun row column => parsePosition_of_namesCell, ?_⟩
    intro strip state led given notOff driven
    obtain ⟨start, read, inside⟩ :=
      (lights_iff position led).mp (toggleLED_drives given notOff driven)
    obtain ⟨row, column, names⟩ := accepts.mp (by rw [read]; rfl)
    refine ⟨row, column, start, names, ?_, inside⟩
    rw [← parsePosition_of_namesCell names, read]

/-- A row that is not positive is looked up from the end of the column. -/
theorem not_onlyNamedCells_zero_row :
    ¬ OnlyNamedCells (bytes "00.A") := by
  intro only
  obtain ⟨row, column, names⟩ := only.accepts.mp (by decide)
  obtain ⟨tens, ones, separator, letter, spelled, _, _, value, _⟩ :=
    names.spelled
  have digits : bytes "00.A" = [48, 48, 46, 65] := by decide
  have positive := names.positive
  rw [digits] at spelled
  simp only [List.cons.injEq] at spelled
  rw [← spelled.1, ← spelled.2.1] at value
  simp [digitsValue] at value
  omega

end LtlsKitting.Cabinet
