import LtlsKitting.Php.Bytes

/-!
# The lights of the cabinet

`led.py` drives a strip of lights.  It turns the strip off and then lights up
four lights for each location that it is given.  A location is a row, a
separator and a column; it is looked up in a table of the first lights of the
cells.  An exception ends the script, and the strip stays as it was left.
-/

namespace LtlsKitting.Cabinet

open LtlsKitting.Php

structure Rgb where
  red : UInt8
  green : UInt8
  blue : UInt8
  deriving DecidableEq, Repr

def Rgb.off : Rgb := ⟨0, 0, 0⟩

def Rgb.lit : Rgb := ⟨0, 255, 0⟩

abbrev Strip := Nat → Rgb

/-- The device sets the given number of lights from the index on. -/
def setRgbValues
    (strip : Strip) (index length : Nat) (r g b : List UInt8) : Strip :=
  fun led =>
    if index ≤ led ∧ led < index + length then
      ⟨r.getD (led - index) 0, g.getD (led - index) 0,
        b.getD (led - index) 0⟩
    else
      strip led

/-! ## The script -/

/-- The first lights of the cells, column by column. -/
def locList : List (List Nat) :=
  [[58, 40], [87, 18]]

/-- `[value]*16` -/
def sixteen (value : UInt8) : List UInt8 :=
  List.replicate 16 value

def turnoff (strip : Strip) : Strip :=
  (List.range 20).foldl
    (fun current i =>
      setRgbValues current (i * 10) 10 (sixteen 0) (sixteen 0) (sixteen 0))
    strip

/-- The digits of a number, at least one. -/
def pythonDigits (text : Bytes) : Option Nat :=
  if text ≠ [] ∧ text.all isDigit then some (digitsValue text) else none

/-- `int( text )`; `none` is an exception. -/
def pythonInt (text : Bytes) : Option Int :=
  match
    (((text.dropWhile isSpace).reverse).dropWhile isSpace).reverse with
  | 43 :: digits => (pythonDigits digits).map Int.ofNat
  | 45 :: digits => (pythonDigits digits).map (fun value => -Int.ofNat value)
  | digits => (pythonDigits digits).map Int.ofNat

/-- An index from the end is negative. -/
def pythonIndex {α : Type} (items : List α) (index : Int) : Option α :=
  if 0 ≤ index then
    items[index.toNat]?
  else if 0 ≤ items.length + index then
    items[(items.length + index).toNat]?
  else
    none

/-- The first light of a location; `none` is an exception. -/
def parsePosition (position : Bytes) : Option Nat :=
  let col := if position.drop 3 = bytes "A" then 0 else 1
  match pythonInt (position.take 2) with
  | some row =>
      (locList[col]?).bind (fun column => pythonIndex column (row - 1))
  | none => none

/-- The strip after `toggleLED`; an error is the strip at an exception. -/
def toggleLED (strip : Strip) (state : Int) (position : Option Bytes) :
    Except Strip Strip :=
  match position.filter (fun text => !text.isEmpty) with
  | none => .ok (turnoff strip)
  | some text =>
      match parsePosition text with
      | none => .error strip
      | some led =>
          if state = 3 then
            .ok (turnoff strip)
          else if state ≠ 0 then
            .ok
              (setRgbValues strip led 4 (sixteen 0) (sixteen 255)
                (sixteen 0))
          else
            .ok
              (setRgbValues strip led 4 (sixteen 0) (sixteen 0) (sixteen 0))

/-- The main program on the arguments of the script. -/
def opr2 (strip : Strip) (argv : List Bytes) : Except Strip Strip :=
  match (argv[1]?).bind pythonInt with
  | none => .error strip
  | some state => do
      let dark ← toggleLED strip state none
      (argv.drop 2).foldlM
        (fun current position => toggleLED current state (some position)) dark

/-- The strip that is left when the script has ended. -/
def leftStrip : Except Strip Strip → Strip
  | .ok strip => strip
  | .error strip => strip

example : parsePosition (bytes "01.A") = some 58 := by decide
example : parsePosition (bytes "02xB") = some 18 := by decide
example : parsePosition (bytes "03xB") = none := by decide

/-! ## What the lights show -/

/-- The light belongs to the cell of the position. -/
def lights (position : Bytes) (led : Nat) : Bool :=
  (parsePosition position).any
    (fun start => decide (start ≤ led ∧ led < start + 4))

theorem lights_iff (position : Bytes) (led : Nat) :
    lights position led = true ↔
      ∃ start,
        parsePosition position = some start ∧
          start ≤ led ∧ led < start + 4 := by
  simp [lights, Option.any_eq_true]

/-- The colour of a light if the given positions are lit. -/
def shown (positions : List Bytes) (led : Nat) : Rgb :=
  if positions.any (fun position => lights position led) then
    Rgb.lit
  else
    Rgb.off

/-- An empty position lights nothing. -/
theorem shown_filter (positions : List Bytes) (led : Nat) :
    shown (positions.filter (fun position => !position.isEmpty)) led =
      shown positions led := by
  have dark : lights [] led = false := rfl
  have same :
      (positions.filter (fun position => !position.isEmpty)).any
          (fun position => lights position led) =
        positions.any (fun position => lights position led) := by
    induction positions with
    | nil =>
        rfl
    | cons position rest inductionHypothesis =>
        cases position with
        | nil =>
            rw [List.any_cons, dark, Bool.false_or]
            exact inductionHypothesis
        | cons byte more =>
            exact congrArg (lights (byte :: more) led || ·) inductionHypothesis
  rw [shown, shown, same]

theorem getD_sixteen {k : Nat} (small : k < 16) (value : UInt8) :
    (sixteen value).getD k 0 = value := by
  rw [sixteen, List.getD_eq_getElem?_getD, List.getElem?_replicate,
    if_pos small]
  rfl

theorem setRgbValues_sixteen
    (strip : Strip) {index length : Nat} (short : length ≤ 16)
    (r g b : UInt8) (led : Nat) :
    setRgbValues strip index length (sixteen r) (sixteen g) (sixteen b) led =
      if index ≤ led ∧ led < index + length then ⟨r, g, b⟩ else strip led := by
  simp only [setRgbValues]
  split
  next inside =>
    have small : led - index < 16 := by omega
    rw [getD_sixteen small, getD_sixteen small, getD_sixteen small]
  next =>
    rfl

theorem turnoff_range (strip : Strip) (count led : Nat) :
    (List.range count).foldl
        (fun current i =>
          setRgbValues current (i * 10) 10 (sixteen 0) (sixteen 0)
            (sixteen 0)) strip led =
      if led < count * 10 then Rgb.off else strip led := by
  induction count with
  | zero =>
      simp
  | succ count inductionHypothesis =>
      rw [List.range_succ, List.foldl_append, List.foldl_cons,
        List.foldl_nil, setRgbValues_sixteen _ (by omega),
        inductionHypothesis]
      by_cases inside : count * 10 ≤ led ∧ led < count * 10 + 10
      · rw [if_pos inside, if_pos (by omega)]
        rfl
      · rw [if_neg inside]
        by_cases before : led < count * 10
        · rw [if_pos before, if_pos (by omega)]
        · rw [if_neg before, if_neg (by omega)]

theorem turnoff_apply (strip : Strip) (led : Nat) :
    turnoff strip led = if led < 200 then Rgb.off else strip led :=
  turnoff_range strip 20 led

/-- One position is lit on top of the others. -/
theorem toggleLED_lit (strip : Strip) {position : Bytes} {start : Nat}
    (names : parsePosition position = some start) :
    ∃ after,
      toggleLED strip 1 (some position) = .ok after ∧
        ∀ led,
          after led =
            if lights position led then Rgb.lit else strip led := by
  have toggled :
      toggleLED strip 1 (some position) =
        .ok
          (setRgbValues strip start 4 (sixteen 0) (sixteen 255)
            (sixteen 0)) := by
    cases position with
    | nil =>
        cases names
    | cons byte rest =>
        have kept :
            (some (byte :: rest)).filter (fun text => !text.isEmpty) =
              some (byte :: rest) := rfl
        simp only [toggleLED, kept, names]
        rfl
  refine ⟨_, toggled, ?_⟩
  intro led
  rw [setRgbValues_sixteen _ (by omega)]
  simp [lights, names, Rgb.lit]

/-- The loop over the positions. -/
theorem toggleLED_loop (strip : Strip) {positions : List Bytes}
    (names : ∀ position ∈ positions, (parsePosition position).isSome) :
    ∃ after,
      positions.foldlM
          (fun current position => toggleLED current 1 (some position))
          strip =
        .ok after ∧
        ∀ led,
          after led =
            if positions.any (fun position => lights position led) then
              Rgb.lit
            else
              strip led := by
  induction positions generalizing strip with
  | nil =>
      exact ⟨strip, rfl, fun led => rfl⟩
  | cons position rest inductionHypothesis =>
      obtain ⟨start, isStart⟩ :=
        Option.isSome_iff_exists.mp (names position (List.mem_cons_self ..))
      obtain ⟨next, toggled, nextLights⟩ := toggleLED_lit strip isStart
      obtain ⟨after, looped, afterLights⟩ :=
        inductionHypothesis next
          (fun other member => names other (List.mem_cons_of_mem _ member))
      refine ⟨after, ?_, ?_⟩
      · rw [List.foldlM_cons, toggled]
        exact looped
      · intro led
        rw [afterLights, nextLights, List.any_cons]
        by_cases here : lights position led = true
        · simp [here]
        · simp [here]

/-- The script shows exactly the given positions, whatever was shown before. -/
theorem opr2_lit (strip : Strip) {positions : List Bytes}
    (names : ∀ position ∈ positions, (parsePosition position).isSome)
    {led : Nat} (onStrip : led < 200) :
    leftStrip
        (opr2 strip
          (bytes "scripts/led.py" :: bytes "1" :: positions)) led =
      shown positions led := by
  obtain ⟨after, looped, afterLights⟩ :=
    toggleLED_loop (turnoff strip) names
  have state : pythonInt (bytes "1") = some 1 := by
    decide
  have result :
      opr2 strip (bytes "scripts/led.py" :: bytes "1" :: positions) =
        .ok after := by
    simp only [opr2, List.getElem?_cons_succ, List.getElem?_cons_zero,
      Option.bind_some, state]
    exact looped
  rw [result, leftStrip, afterLights, turnoff_apply, if_pos onStrip]
  rfl

/-- With the state of a page that is opened, everything is turned off. -/
theorem opr2_off (strip : Strip) {led : Nat} (onStrip : led < 200) :
    leftStrip (opr2 strip [bytes "scripts/led.py", bytes "3"]) led =
      shown [] led := by
  have result :
      opr2 strip [bytes "scripts/led.py", bytes "3"] =
        .ok (turnoff strip) := by
    have state : pythonInt (bytes "3") = some 3 := by
      decide
    simp only [opr2, List.getElem?_cons_succ, List.getElem?_cons_zero,
      Option.bind_some, state]
    rfl
  rw [result, leftStrip, turnoff_apply, if_pos onStrip]
  rfl

end LtlsKitting.Cabinet
