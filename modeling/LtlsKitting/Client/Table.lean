import LtlsKitting.Client.Numbers
import LtlsKitting.Store.Effects

/-!
# The table of a kit page

The rows of `#kittable`, the rows that `new_tr` builds, and the handler of a
response.  A row without a tag has an input for the count and a button that
requests a label; a row with a tag is locked and only shows the count.

The handler walks over the response and the table at once.  It works on the
rows found at the start of each round, so a row that is inserted in a round is
not looked at before the next one.  The search for a row that has moved reads
the id of the current row for every candidate, because `tr_id` does not use
its argument.
-/

namespace LtlsKitting.Client

open LtlsKitting.Php LtlsKitting.Store

/-- The cells of a row that show the count and the label. -/
inductive Cells where
  | locked (count : Int) (tag : Bytes) (archived : Bool)
  | unlocked (value : Text) (disabled requested : Bool)
  deriving DecidableEq

structure Row where
  id : Int
  description : Option Bytes
  pn : Bytes
  sn : Bytes
  weight : Bytes
  inventory : Option Int
  target : Int
  location : Bytes
  cells : Cells
  deriving DecidableEq

abbrev Table := List Row

def writeHTML (text : Option Bytes) : Bytes :=
  text.getD []

/-- The tag of a goal, if it counts as true. -/
def goalTag (goal : Goal) : Option Bytes :=
  goal.tagId.filter (fun tag => !tag.isEmpty)

def newCells (goal : Goal) : Cells :=
  match goalTag goal with
  | some tag => .locked goal.count tag goal.archived
  | none => .unlocked (numeral goal.count) (goal.count != goal.target) false

def newTr (goal : Goal) : Row where
  id := goal.id
  description := goal.description
  pn := writeHTML goal.pn
  sn := writeHTML goal.sn
  weight := writeHTML goal.weight
  inventory := goal.inventory
  target := goal.target
  location := writeHTML goal.location
  cells := newCells goal

/-- The text of the input after a response: it is overridden only if the
amount cannot be reached from the inventory. -/
def overrideInput (browser : Browser) (goal : Goal) (value : Text) : Text :=
  if value = numeral goal.count then
    value
  else
    match parseInt value, goal.inventory with
    | some typed, some inventory =>
        if browser.exceeds typed goal.count inventory then
          browser.shown goal.count
        else
          value
    | _, _ => value

/-- The row after a response that keeps it unlocked.  The id is not
written. -/
def updateTr
    (browser : Browser) (goal : Goal) (row : Row) (value : Text)
    (requested : Bool) : Row where
  id := row.id
  description := goal.description
  pn := writeHTML goal.pn
  sn := writeHTML goal.sn
  weight := writeHTML goal.weight
  inventory := goal.inventory
  target := goal.target
  location := writeHTML goal.location
  cells :=
    .unlocked (overrideInput browser goal value)
      (overrideInput browser goal value != numeral goal.target) requested

/-- The current row after a round. -/
def settleTr (browser : Browser) (goal : Goal) (row : Row) : Row :=
  match goalTag goal, row.cells with
  | none, .unlocked value _ requested =>
      updateTr browser goal row value requested
  | _, _ => newTr goal

/-- `tr_id` reads the global row and ignores its argument. -/
def trId (quo : Row) (_tr : Row) : Int :=
  quo.id

/-- Insert a row after `trs.eq( i-1 )`; for `i = 0` this is the last row. -/
def insertBehind (i : Nat) (row : Row) (rows : Table) : Table :=
  if i = 0 then rows ++ [row] else rows.insertIdx i row

/-- The index at which the search finds the goal. -/
def findMoved (i : Nat) (trs : Table) (quo : Row) (goal : Goal) :
    Option Nat :=
  (List.range' i (trs.length - i)).find?
    (fun j => trId quo (trs.getD j quo) = goal.id)

/-- The rows after a round in which both a goal and a row are present. -/
def placeRow
    (browser : Browser) (i : Nat) (trs : Table) (quo : Row) (goal : Goal) :
    Table :=
  let settled := trs.set i (settleTr browser goal quo)
  if goal.id = quo.id then
    settled
  else
    match findMoved i trs quo goal with
    | some j =>
        insertBehind i (settled.getD j quo) (settled.eraseIdx j)
    | none => insertBehind i (newTr goal) settled

/-- One round of the loop; `none` is its end. -/
def round
    (browser : Browser) (data : List Goal) (current : Nat × Table) :
    Option (Nat × Table) :=
  match data[current.1]?, current.2[current.1]? with
  | none, none => none
  | none, some _ => some (current.1, current.2.eraseIdx current.1)
  | some goal, none => some (current.1 + 1, current.2 ++ [newTr goal])
  | some goal, some quo =>
      some
        (current.1 + 1,
          placeRow browser current.1 current.2 quo goal)

/-- At most the given number of rounds. -/
def rounds
    (browser : Browser) (data : List Goal) :
    Nat → Nat × Table → Nat × Table
  | 0, current => current
  | limit + 1, current =>
      match round browser data current with
      | none => current
      | some next => rounds browser data limit next

/-- Every round of the response either adds at most one row and uses up a
goal, or removes a row. -/
def roundLimit (data : List Goal) (table : Table) : Nat :=
  2 * data.length + table.length

/-- The table after the handler has run. -/
def syncResult
    (browser : Browser) (data : List Goal) (table : Table) : Table :=
  (rounds browser data (roundLimit data table) (0, table)).2

/-! ## The end of the loop -/

theorem length_placeRow
    (browser : Browser) (i : Nat) (trs : Table) (quo : Row) (goal : Goal) :
    (placeRow browser i trs quo goal).length ≤ trs.length + 1 := by
  have inserted :
      ∀ (row : Row) (rows : Table),
        (insertBehind i row rows).length ≤ rows.length + 1 := by
    intro row rows
    simp only [insertBehind]
    split
    · simp
    · exact List.length_insertIdx_le_succ ..
  unfold placeRow
  dsimp only
  split
  · simp
  · split
    next j found =>
      refine (inserted _ _).trans ?_
      have erased :=
        List.length_eraseIdx_le (trs.set i (settleTr browser goal quo)) j
      simp only [List.length_set] at erased
      omega
    next =>
      simpa using
        inserted (newTr goal) (trs.set i (settleTr browser goal quo))

/-- The number of rounds that are left at most. -/
def roundsLeft (data : List Goal) (current : Nat × Table) : Nat :=
  2 * (data.length - current.1) + current.2.length

theorem roundsLeft_round
    {browser : Browser} {data : List Goal} {current next : Nat × Table}
    (continues : round browser data current = some next) :
    roundsLeft data next < roundsLeft data current := by
  obtain ⟨i, table⟩ := current
  simp only [round] at continues
  simp only [roundsLeft]
  split at continues
  · cases continues
  next row noGoal present =>
    have inTable : i < table.length := (List.getElem?_eq_some_iff.mp present).1
    rw [← Option.some.inj continues]
    simp only [List.length_eraseIdx, inTable, if_true]
    omega
  next goal present noRow =>
    have inData : i < data.length := (List.getElem?_eq_some_iff.mp present).1
    rw [← Option.some.inj continues]
    simp only [List.length_append, List.length_singleton]
    omega
  next goal quo present _ =>
    have inData : i < data.length := (List.getElem?_eq_some_iff.mp present).1
    have longer := length_placeRow browser i table quo goal
    rw [← Option.some.inj continues]
    simp only
    omega

theorem rounds_end
    (browser : Browser) (data : List Goal) (limit : Nat)
    (current : Nat × Table) (enough : roundsLeft data current ≤ limit) :
    round browser data (rounds browser data limit current) = none := by
  induction limit generalizing current with
  | zero =>
      cases continues : round browser data current with
      | none =>
          exact continues
      | some next =>
          have fewer := roundsLeft_round continues
          omega
  | succ limit inductionHypothesis =>
      simp only [rounds]
      cases continues : round browser data current with
      | none =>
          exact continues
      | some next =>
          have fewer := roundsLeft_round continues
          exact inductionHypothesis next (by omega)

/-- The rounds that the handler is given are enough. -/
theorem syncResult_end
    (browser : Browser) (data : List Goal) (table : Table) :
    round browser data
        (rounds browser data (roundLimit data table) (0, table)) =
      none :=
  rounds_end browser data _ _ (Nat.le_refl _)

end LtlsKitting.Client
