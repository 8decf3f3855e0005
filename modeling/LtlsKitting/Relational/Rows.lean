import Mathlib.Data.List.Nodup
import Mathlib.Algebra.BigOperators.Group.List.Basic
import Mathlib.Tactic.Abel

/-!
# Tables as lists of rows

A table is a list of rows.  `updateWhere` is the effect of an update
statement: the rows that satisfy a condition are rewritten in place.  Sums of
a column over a table are related to the rows that an update touches, and a
key that identifies at most one row reduces those rows to a single one.
-/

namespace LtlsKitting.Relational

universe u v w

variable {ρ : Type u} {κ : Type v}

/-- Rewrite the rows that satisfy the condition. -/
def updateWhere
    (condition : ρ → Prop) [DecidablePred condition]
    (rewrite : ρ → ρ) (rows : List ρ) : List ρ :=
  rows.map (fun row => if condition row then rewrite row else row)

/-- The key identifies at most one row of the table. -/
def Identifies (key : ρ → κ) (rows : List ρ) : Prop :=
  (rows.map key).Nodup

/-- The sum of a column over the rows of a table. -/
def columnSum {M : Type w} [AddMonoid M] (column : ρ → M) (rows : List ρ) : M :=
  (rows.map column).sum

section

variable {condition : ρ → Prop} [DecidablePred condition]
variable {rewrite : ρ → ρ} {rows : List ρ}

theorem mem_updateWhere {row : ρ} :
    row ∈ updateWhere condition rewrite rows ↔
      ∃ source ∈ rows,
        (if condition source then rewrite source else source) = row := by
  exact List.mem_map

/-- A column that the rewriting does not change is unchanged. -/
theorem map_updateWhere
    {γ : Type w} {column : ρ → γ}
    (unchanged :
      ∀ row ∈ rows, condition row → column (rewrite row) = column row) :
    (updateWhere condition rewrite rows).map column =
      rows.map column := by
  simp only [updateWhere]
  rw [List.map_map]
  apply List.map_congr_left
  intro row member
  by_cases selected : condition row
  · simp [selected, unchanged row member selected]
  · simp [selected]

/-- The table does not change exactly if every row that satisfies the
condition is rewritten to itself. -/
theorem updateWhere_eq_self_iff :
    updateWhere condition rewrite rows = rows ↔
      ∀ row ∈ rows, condition row → rewrite row = row := by
  induction rows with
  | nil =>
      simp [updateWhere]
  | cons first rest inductionHypothesis =>
      simp only [updateWhere, List.map_cons, List.cons.injEq,
        List.forall_mem_cons] at inductionHypothesis ⊢
      rw [inductionHypothesis, ite_eq_right_iff]

/-- If no row satisfies the condition, the table does not change. -/
theorem updateWhere_eq_self
    (nowhere : ∀ row ∈ rows, ¬ condition row) :
    updateWhere condition rewrite rows = rows := by
  rw [updateWhere_eq_self_iff]
  intro row member selected
  exact absurd selected (nowhere row member)

/-- The first row of a key, after an update that keeps the keys. -/
theorem find?_updateWhere [DecidableEq κ] {key : ρ → κ}
    (kept : ∀ row, condition row → key (rewrite row) = key row)
    (wanted : κ) :
    (updateWhere condition rewrite rows).find?
        (fun row => key row = wanted) =
      (rows.find? (fun row => key row = wanted)).map
        (fun row => if condition row then rewrite row else row) := by
  have sameKey :
      ∀ row, key (if condition row then rewrite row else row) = key row := by
    intro row
    split
    next selected => exact kept row selected
    next => rfl
  simp only [updateWhere, List.find?_map, Function.comp_def, sameKey]

end

/-- If two tables agree in some columns, they agree in what is computed from
these columns. -/
theorem map_columns
    {γ : Type w} {δ : Type w} {columns : ρ → γ} {first second : List ρ}
    (same : first.map columns = second.map columns) (read : γ → δ) :
    first.map (fun row => read (columns row)) =
      second.map (fun row => read (columns row)) := by
  have composed := congrArg (List.map read) same
  rw [List.map_map, List.map_map] at composed
  exact composed

/-- A key that identifies the rows selects at most one. -/
theorem Identifies.filter_eq
    {key : ρ → κ} {rows : List ρ} [DecidableEq κ]
    (identifies : Identifies key rows)
    {row : ρ} (member : row ∈ rows) :
    rows.filter (fun other => key other = key row) = [row] := by
  induction rows with
  | nil =>
      cases member
  | cons head tail inductionHypothesis =>
      obtain ⟨fresh, rest⟩ := List.nodup_cons.mp identifies
      rcases List.mem_cons.mp member with rfl | inTail
      · have nowhere :
            tail.filter (fun other => key other = key row) = [] := by
          rw [List.filter_eq_nil_iff]
          intro other otherMember
          simp only [decide_eq_true_eq]
          intro sameKey
          exact fresh (List.mem_map.mpr ⟨other, otherMember, sameKey⟩)
        rw [List.filter_cons_of_pos (by simp), nowhere]
      · have different : key head ≠ key row := by
          intro sameKey
          exact fresh (List.mem_map.mpr ⟨row, inTail, sameKey.symm⟩)
        rw [List.filter_cons_of_neg (by simpa using different)]
        exact inductionHypothesis rest inTail

/-- Two rows with the same key are the same row. -/
theorem Identifies.eq_of_key_eq
    {key : ρ → κ} {rows : List ρ}
    (identifies : Identifies key rows)
    {left right : ρ}
    (leftMember : left ∈ rows) (rightMember : right ∈ rows)
    (sameKey : key left = key right) :
    left = right :=
  List.inj_on_of_nodup_map identifies leftMember rightMember sameKey

section Sums

variable {M : Type w} [AddCommGroup M]

@[simp]
theorem columnSum_cons (column : ρ → M) (row : ρ) (rows : List ρ) :
    columnSum column (row :: rows) = column row + columnSum column rows := by
  simp [columnSum]

theorem columnSum_eq_zero
    {column : ρ → M} {rows : List ρ}
    (zero : ∀ row ∈ rows, column row = 0) :
    columnSum column rows = 0 := by
  induction rows with
  | nil =>
      rfl
  | cons row rows inductionHypothesis =>
      rw [columnSum_cons, zero row (by simp),
        inductionHypothesis (fun later member => zero later (by simp [member]))]
      exact add_zero 0

theorem columnSum_congr
    {first second : ρ → M} {rows : List ρ}
    (same : ∀ row ∈ rows, first row = second row) :
    columnSum first rows = columnSum second rows := by
  simp only [columnSum]
  rw [List.map_congr_left same]

theorem columnSum_map
    (column : ρ → M) (rewrite : ρ → ρ) (rows : List ρ) :
    columnSum column (rows.map rewrite) =
      columnSum (fun row => column (rewrite row)) rows := by
  simp only [columnSum, List.map_map]
  rfl

/-- Two sums differ by what the columns differ in each row. -/
theorem columnSum_eq_add (first second : ρ → M) (rows : List ρ) :
    columnSum second rows =
      columnSum first rows +
        columnSum (fun row => second row - first row) rows := by
  induction rows with
  | nil =>
      simp [columnSum]
  | cons row rows inductionHypothesis =>
      simp only [columnSum_cons, inductionHypothesis]
      abel

/-- A column that is zero except at one identified row sums to its value
there. -/
theorem columnSum_eq_of_identifies
    {key : ρ → κ} {column : ρ → M} {rows : List ρ}
    (identifies : Identifies key rows)
    {row : ρ} (member : row ∈ rows)
    (elsewhere :
      ∀ other ∈ rows, key other ≠ key row → column other = 0) :
    columnSum column rows = column row := by
  induction rows with
  | nil =>
      cases member
  | cons head tail inductionHypothesis =>
      have headFresh : key head ∉ tail.map key :=
        (List.nodup_cons.mp identifies).1
      have tailIdentifies : Identifies key tail :=
        (List.nodup_cons.mp identifies).2
      rw [columnSum_cons]
      rcases List.mem_cons.mp member with atHead | inTail
      · subst row
        have tailZero : columnSum column tail = 0 := by
          apply columnSum_eq_zero
          intro other otherMember
          apply elsewhere other (by simp [otherMember])
          intro sameKey
          exact headFresh (List.mem_map.mpr ⟨other, otherMember, sameKey⟩)
        rw [tailZero, add_zero]
      · have headZero : column head = 0 := by
          apply elsewhere head (by simp)
          intro sameKey
          exact headFresh (List.mem_map.mpr ⟨row, inTail, sameKey.symm⟩)
        rw [headZero, zero_add]
        exact
          inductionHypothesis tailIdentifies inTail
            (fun other otherMember => elsewhere other (by simp [otherMember]))

/-- Two columns that differ at one identified row only have sums that differ
by as much. -/
theorem columnSum_eq_add_of_identifies
    {key : ρ → κ} {first second : ρ → M} {rows : List ρ}
    (identifies : Identifies key rows)
    {row : ρ} (member : row ∈ rows)
    (elsewhere :
      ∀ other ∈ rows, key other ≠ key row → second other = first other) :
    columnSum second rows =
      columnSum first rows + (second row - first row) := by
  have change :
      columnSum (fun other => second other - first other) rows =
        second row - first row := by
    apply columnSum_eq_of_identifies identifies member
    intro other otherMember different
    rw [elsewhere other otherMember different, sub_self]
  rw [columnSum_eq_add first second, change]

/-- A rewriting that changes a column at one identified row only changes the
sum by the change at that row. -/
theorem columnSum_map_of_identifies
    {key : ρ → κ} {column : ρ → M} {rewrite : ρ → ρ} {rows : List ρ}
    (identifies : Identifies key rows)
    {row : ρ} (member : row ∈ rows)
    (elsewhere :
      ∀ other ∈ rows, key other ≠ key row →
        column (rewrite other) = column other) :
    columnSum column (rows.map rewrite) =
      columnSum column rows + (column (rewrite row) - column row) := by
  rw [columnSum_map]
  exact columnSum_eq_add_of_identifies identifies member elsewhere

end Sums

end LtlsKitting.Relational
