import LtlsKitting.Client.Doubles
import LtlsKitting.Client.Page
import LtlsKitting.Client.Reconciliation

/-!
# The table along the responses

If the rows of every response are numbered from zero, the table always agrees
with the response in its ids, so a response changes every row in its place,
adds rows at the end, or removes rows at the end.  A row that has an input
keeps it, unless the typed amount cannot be reached from the inventory.
-/

namespace LtlsKitting.Client

open LtlsKitting.Php LtlsKitting.Store LtlsKitting.Interaction

/-! ## What a response makes of an input -/

/-- What the page computes for the typed number exceeds the inventory. -/
def overrides (browser : Browser) (goal : Goal) (text : Text) : Bool :=
  match parseInt text, goal.inventory with
  | some typed, some inventory => browser.exceeds typed goal.count inventory
  | _, _ => false

/-- The typed integer minus the count exceeds the inventory. -/
def Unreachable (goal : Goal) (text : Text) : Prop :=
  ∃ typed inventory,
    parseInt text = some typed ∧ goal.inventory = some inventory ∧
      inventory < typed - goal.count

/-- The count, the inventory and their sum are less than 2^53 in absolute
value. -/
structure SmallStock (goal : Goal) : Prop where
  count : SmallInteger goal.count
  inventory :
    ∀ inventory, goal.inventory = some inventory → SmallInteger inventory
  sum :
    ∀ inventory, goal.inventory = some inventory →
      SmallInteger (goal.count + inventory)

/-- Whatever is typed, the page overrides what is unreachable. -/
theorem overrides_iff (browser : Browser) {goal : Goal}
    (small : SmallStock goal) (text : Text) :
    overrides browser goal text = true ↔ Unreachable goal text := by
  simp only [overrides, Unreachable]
  cases parsed : parseInt text with
  | none => simp
  | some typed =>
      cases stock : goal.inventory with
      | none => simp
      | some inventory =>
          simp only [Option.some.injEq]
          rw [browser.exceeds_small typed small.count
            (small.inventory inventory stock) (small.sum inventory stock),
            decide_eq_true_eq]
          simp

theorem overrideInput_eq (browser : Browser) (goal : Goal) (text : Text) :
    overrideInput browser goal text =
      if text = numeral goal.count then
        text
      else if overrides browser goal text then
        browser.shown goal.count
      else
        text := by
  cases read : parseInt text with
  | none => simp [overrideInput, overrides, read]
  | some typed =>
      cases stock : goal.inventory with
      | none => simp [overrideInput, overrides, read, stock]
      | some inventory => simp [overrideInput, overrides, read, stock]

/-- An input keeps its text unless the typed amount is unreachable; then it
shows the count. -/
def InputKept (goal : Goal) (previous text : Text) : Prop :=
  (Unreachable goal previous → text = numeral goal.count) ∧
    (¬ Unreachable goal previous → text = previous)

theorem inputKept_overrideInput (browser : Browser) {goal : Goal}
    (small : SmallStock goal) (previous : Text) :
    InputKept goal previous (overrideInput browser goal previous) := by
  have shown : browser.shown goal.count = numeral goal.count :=
    browser.shown_safe goal.count
      ⟨le_of_lt small.count.1, le_of_lt small.count.2⟩
  have test := overrides_iff browser small previous
  rw [overrideInput_eq]
  by_cases counted : previous = numeral goal.count
  · rw [if_pos counted]
    exact ⟨fun _ => counted, fun _ => rfl⟩
  · rw [if_neg counted]
    constructor
    · intro unreachable
      rw [if_pos (test.mpr unreachable)]
      exact shown
    · intro reachable
      rw [if_neg (fun overrides => reachable (test.mp overrides))]

/-- The label button of a row can be clicked. -/
def labelEnabled (row : Row) : Bool :=
  match row.cells with
  | .locked _ _ _ => false
  | .unlocked _ disabled _ => !disabled

/-- A row after a response, compared with the row that stood in its place
before. -/
structure RowMirrors (before : Option Row) (goal : Goal) (row : Row) :
    Prop where
  shows : Shows goal row
  locked :
    inputText row = none ↔ ∃ tag, goal.tagId = some tag ∧ tag ≠ []
  archived :
    inputText row = none →
      isFinal row = goal.archived ∧ isReady row = !goal.archived
  kept :
    SmallStock goal →
      ∀ previous text,
        before.bind inputText = some previous → inputText row = some text →
          InputKept goal previous text
  fresh :
    before.bind inputText = none →
      ∀ text, inputText row = some text → text = numeral goal.count
  enabled :
    ∀ text, inputText row = some text →
      (labelEnabled row = true ↔ text = numeral goal.target)

section

variable {browser : Browser}

theorem goalTag_eq_none_iff (goal : Goal) :
    goalTag goal = none ↔ ¬ ∃ tag, goal.tagId = some tag ∧ tag ≠ [] := by
  simp only [goalTag]
  cases goal.tagId with
  | none => simp
  | some tag =>
      cases tag with
      | nil => simp
      | cons byte rest => simp

/-- A row that is new, or replaces a locked row or the row of a goal with a
tag. -/
theorem rowMirrors_newTr
    {before : Option Row} {goal : Goal}
    (replaced : goalTag goal ≠ none ∨ before.bind inputText = none) :
    RowMirrors before goal (newTr goal) := by
  have numerals :
      goal.count = goal.target ↔
        numeral goal.count = numeral goal.target :=
    ⟨fun same => by rw [same], numeral_injective⟩
  have lockedIff := goalTag_eq_none_iff goal
  cases tagged : goalTag goal with
  | some tag =>
      have cells :
          (newTr goal).cells = .locked goal.count tag goal.archived := by
        simp [newTr, newCells, tagged]
      have hasTag : ∃ tag, goal.tagId = some tag ∧ tag ≠ [] := by
        by_contra missing
        rw [tagged] at lockedIff
        exact absurd (lockedIff.mpr missing) (by simp)
      refine ⟨shows_newTr goal, ?_, ?_, ?_, ?_, ?_⟩
      · simp [inputText, cells, hasTag]
      · simp [isFinal, isReady, cells]
      · simp [inputText, cells]
      · simp [inputText, cells]
      · simp [inputText, cells]
  | none =>
      have cells :
          (newTr goal).cells =
            .unlocked (numeral goal.count) (goal.count != goal.target)
              false := by
        simp [newTr, newCells, tagged]
      have noTag := lockedIff.mp tagged
      have noInput : before.bind inputText = none := by
        rcases replaced with hasTag | noInput
        · exact absurd tagged hasTag
        · exact noInput
      refine ⟨shows_newTr goal, ?_, ?_, ?_, ?_, ?_⟩
      · simp [inputText, cells, noTag]
      · simp [inputText, cells]
      · simp [noInput]
      · intro _ text shown
        simpa [inputText, cells] using shown.symm
      · intro text shown
        have same : numeral goal.count = text := by
          simpa [inputText, cells] using shown
        rw [← same, ← numerals]
        simp [labelEnabled, cells]

/-- The row that stands in the place of its goal. -/
theorem rowMirrors_settleTr (goal : Goal) (row : Row) :
    RowMirrors (some row) goal (settleTr browser goal row) := by
  cases tagged : goalTag goal with
  | some tag =>
      have settled : settleTr browser goal row = newTr goal := by
        simp [settleTr, tagged]
      rw [settled]
      apply rowMirrors_newTr
      simp [tagged]
  | none =>
      cases cells : row.cells with
      | locked count tag archived =>
          have settled : settleTr browser goal row = newTr goal := by
            simp [settleTr, tagged, cells]
          rw [settled]
          apply rowMirrors_newTr
          simp [inputText, cells]
      | unlocked value disabled requested =>
          have settled :
              settleTr browser goal row =
                updateTr browser goal row value requested := by
            simp [settleTr, tagged, cells]
          have noTag := (goalTag_eq_none_iff goal).mp tagged
          rw [settled]
          refine ⟨⟨rfl, rfl, rfl, rfl, rfl, rfl, rfl⟩, ?_, ?_, ?_, ?_, ?_⟩
          · simp [inputText, updateTr, noTag]
          · simp [inputText, updateTr]
          · intro small previous text was shown
            have samePrevious : value = previous := by
              simpa [inputText, cells] using was
            have sameText : overrideInput browser goal value = text := by
              simpa [inputText, updateTr] using shown
            rw [← sameText, ← samePrevious]
            exact inputKept_overrideInput browser small value
          · simp [inputText, cells]
          · intro text shown
            have sameText : overrideInput browser goal value = text := by
              simpa [inputText, updateTr] using shown
            simp [labelEnabled, updateTr, sameText]

end

/-! ## Runs -/

/-- What happens to the table of a page: the user types into an input or
clicks on a button, or a response is handled. -/
inductive TableAction where
  | edit (row : Nat) (text : Text)
  | click (row : Nat)
  | handle (data : List Goal)

def tableStep (browser : Browser) (table : Table) : TableAction → Table
  | .edit row text => table.modify row (editRow text)
  | .click row => table.modify row clickRow
  | .handle data => syncResult browser data table

/-- The rows of the response have the ids 0, 1, ... in order. -/
def Numbered (data : List Goal) : Prop :=
  data.map Goal.id = (List.range data.length).map Int.ofNat

/-- A response that is handled is numbered. -/
def TableAction.Numbered : TableAction → Prop
  | .handle data => Client.Numbered data
  | _ => True

instance TableAction.decidableNumbered :
    ∀ action : TableAction, Decidable action.Numbered
  | .handle data =>
      inferInstanceAs
        (Decidable
          (data.map Goal.id = (List.range data.length).map Int.ofNat))
  | .edit _ _ => inferInstanceAs (Decidable True)
  | .click _ => inferInstanceAs (Decidable True)

/-- The table after a response, compared with the table before. -/
structure Mirrored (before : Table) (data : List Goal) (after : Table) :
    Prop where
  length : after.length = data.length
  rows :
    ∀ (i : Nat) (goal : Goal) (row : Row),
      data[i]? = some goal → after[i]? = some row →
        row.id = i ∧ RowMirrors before[i]? goal row

/-- The ids of the table count its rows. -/
def NumberedRows (table : Table) : Prop :=
  ∀ (i : Nat) (row : Row), table[i]? = some row → row.id = i

section

variable {browser : Browser}

theorem Numbered.id_eq {data : List Goal} (numbered : Numbered data)
    {i : Nat} {goal : Goal} (present : data[i]? = some goal) :
    goal.id = i := by
  obtain ⟨inside, found⟩ := List.getElem?_eq_some_iff.mp present
  have ids := congrArg (fun ids => ids[i]?) numbered
  simpa [inside, found] using ids

/-- One response. -/
theorem mirrored_syncResult
    {table : Table} {data : List Goal} (rows : NumberedRows table)
    (numbered : Numbered data) :
    Mirrored table data (syncResult browser data table) := by
  have same : SameIds table data := by
    apply sameIds_of_getElem?
    intro i row goal present goalPresent
    rw [numbered.id_eq goalPresent, rows i row present]
  refine ⟨(syncResult_shows data table).length_eq.symm, ?_⟩
  intro i goal row goalPresent present
  rw [syncResult_of_sameIds same, getElem?_arrange, goalPresent,
    Option.map_some, Option.some.injEq] at present
  have number := numbered.id_eq goalPresent
  cases stood : table[i]? with
  | none =>
      rw [stood] at present
      dsimp only at present
      rw [← present]
      exact ⟨number, rowMirrors_newTr (Or.inr rfl)⟩
  | some old =>
      rw [stood] at present
      dsimp only at present
      have sameId : goal.id = old.id := by
        rw [number, rows i old stood]
      rw [← present]
      exact
        ⟨(settleTr_id sameId).trans number, rowMirrors_settleTr goal old⟩

theorem numberedRows_modify
    {table : Table} (rows : NumberedRows table) (place : Nat)
    {change : Row → Row} (kept : ∀ row, (change row).id = row.id) :
    NumberedRows (table.modify place change) := by
  intro i row present
  rw [List.getElem?_modify] at present
  obtain ⟨old, stood, changed⟩ := Option.map_eq_some_iff.mp present
  rw [← rows i old stood, ← changed]
  split
  · exact kept old
  · rfl

theorem editRow_id (text : Text) (row : Row) : (editRow text row).id = row.id := by
  simp only [editRow]
  split <;> rfl

theorem clickRow_id (row : Row) : (clickRow row).id = row.id := by
  simp only [clickRow]
  split <;> rfl

theorem numberedRows_step
    {table : Table} (rows : NumberedRows table) {action : TableAction}
    (numbered : action.Numbered) :
    NumberedRows (tableStep browser table action) := by
  cases action with
  | edit place text =>
      exact numberedRows_modify rows place (editRow_id text)
  | click place =>
      exact numberedRows_modify rows place clickRow_id
  | handle data =>
      have mirrored := @mirrored_syncResult browser table data rows numbered
      intro i row present
      have inside : i < data.length := by
        rw [← mirrored.length]
        exact (List.getElem?_eq_some_iff.mp present).1
      have goalPresent : data[i]? = some (data.get ⟨i, inside⟩) :=
        List.getElem?_eq_getElem inside
      exact (mirrored.rows i _ row goalPresent present).1

end

/-- Along every run of edits, clicks and responses that are numbered from
zero, each response leaves a table that mirrors it. -/
theorem table_mirrors
    (browser : Browser) (actions : List TableAction)
    (numbered : ∀ action ∈ actions, action.Numbered) :
    EveryStep (tableStep browser)
      (fun table action =>
        ∀ data, action = .handle data →
          Mirrored table data (tableStep browser table action))
      [] actions := by
  refine
    everyStep_invariant NumberedRows
      (fun _ _ rows allowed => numberedRows_step rows allowed) ?_ ?_
      (everyStep_of_mem numbered [])
  · rintro table action rows allowed data rfl
    exact mirrored_syncResult rows allowed
  · intro i row present
    simp at present

/-- The row of a group of bolts in a response. -/
def boltGoal (id count inventory : Int) (tag : Option Bytes) : Goal where
  id := id
  description := some (bytes "bolt")
  pn := none
  sn := none
  weight := none
  location := some (bytes "01.A")
  count := count
  target := 5
  inventory := some inventory
  tagId := tag
  archived := false

/-- A row is shown, its input is edited, a second row is added, the typed
amount becomes unreachable, the first row is locked, and the second one is
removed. -/
theorem table_mirrors_bolts :
    EveryStep (tableStep Browser.exact)
      (fun table action =>
        ∀ data, action = .handle data →
          Mirrored table data
            (tableStep Browser.exact table action))
      []
      [.handle [boltGoal 0 0 10 none], .edit 0 "7".toList,
        .handle [boltGoal 0 0 10 none, boltGoal 1 5 10 none],
        .handle [boltGoal 0 0 3 none, boltGoal 1 5 3 none], .click 1,
        .handle [boltGoal 0 5 3 (some (bytes "t1"))]] :=
  table_mirrors Browser.exact
    [.handle [boltGoal 0 0 10 none], .edit 0 "7".toList,
      .handle [boltGoal 0 0 10 none, boltGoal 1 5 10 none],
      .handle [boltGoal 0 0 3 none, boltGoal 1 5 3 none], .click 1,
      .handle [boltGoal 0 5 3 (some (bytes "t1"))]]
    (by decide)

/-- Every input of the table before a response is kept in its place. -/
def InputsKept (before : Table) (data : List Goal) (after : Table) : Prop :=
  ∀ (i : Nat) (goal : Goal) (row : Row) (previous text : Text),
    data[i]? = some goal → after[i]? = some row →
      before[i]?.bind inputText = some previous →
        inputText row = some text → InputKept goal previous text

/-- The typed number minus the count is unreachable, but the page rounds it to
the inventory, and the typed number stays. -/
theorem rounded_amount_stays :
    (∀ action ∈
        ([.handle [boltGoal 0 1 9007199254740992 none],
          .edit 0 "9007199254740994".toList,
          .handle [boltGoal 0 1 9007199254740992 none]] : List TableAction),
      action.Numbered) ∧
      ¬ EveryStep (tableStep Browser.double)
          (fun table action =>
            ∀ data, action = .handle data →
              InputsKept table data
                (tableStep Browser.double table action))
          []
          [.handle [boltGoal 0 1 9007199254740992 none],
            .edit 0 "9007199254740994".toList,
            .handle [boltGoal 0 1 9007199254740992 none]] := by
  refine ⟨by decide, ?_⟩
  rintro ⟨_, _, kept, _⟩
  have before :
      (tableStep Browser.double
            (tableStep Browser.double []
              (.handle [boltGoal 0 1 9007199254740992 none]))
            (.edit 0 "9007199254740994".toList))[0]?.bind inputText =
        some "9007199254740994".toList := by
    decide
  have after :
      (tableStep Browser.double
            (tableStep Browser.double
              (tableStep Browser.double []
                (.handle [boltGoal 0 1 9007199254740992 none]))
              (.edit 0 "9007199254740994".toList))
            (.handle [boltGoal 0 1 9007199254740992 none]))[0]?.bind
          inputText =
        some "9007199254740994".toList := by
    decide
  obtain ⟨row, present, typed⟩ := Option.bind_eq_some_iff.mp after
  have unreachable :
      Unreachable (boltGoal 0 1 9007199254740992 none)
        "9007199254740994".toList :=
    ⟨9007199254740994, 9007199254740992, by decide, rfl, by decide⟩
  have shown :=
    (kept _ rfl 0 _ row _ _ rfl present before typed).1 unreachable
  exact absurd shown (by decide)

end LtlsKitting.Client
