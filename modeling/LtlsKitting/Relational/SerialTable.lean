import LtlsKitting.Relational.Rows

/-!
# Tables with a serial key

A serial key is drawn from a sequence when a row is inserted.  The structure
carries what the sequence guarantees: keys are positive, no two rows have the
same key, and every key lies below the next value of the sequence.  Truncation
restarts the sequence.
-/

namespace LtlsKitting.Relational

variable {ρ : Type} {key : ρ → Int}

/-- A table whose key column is drawn from a sequence. -/
structure SerialTable (key : ρ → Int) where
  rows : List ρ
  nextKey : Int
  positive : ∀ row ∈ rows, 0 < key row
  below : ∀ row ∈ rows, key row < nextKey
  identifies : Identifies key rows
  nextPositive : 0 < nextKey

namespace SerialTable

/-- The table after a truncation that restarts the sequence. -/
def empty : SerialTable key where
  rows := []
  nextKey := 1
  positive := by simp
  below := by simp
  identifies := List.nodup_nil
  nextPositive := by decide

/-- Rewrite every row without touching its key. -/
def update
    (table : SerialTable key) (rewrite : ρ → ρ)
    (kept : ∀ row, key (rewrite row) = key row) : SerialTable key where
  rows := table.rows.map rewrite
  nextKey := table.nextKey
  positive := by
    intro row member
    obtain ⟨source, sourceMember, rfl⟩ := List.mem_map.mp member
    rw [kept]
    exact table.positive source sourceMember
  below := by
    intro row member
    obtain ⟨source, sourceMember, rfl⟩ := List.mem_map.mp member
    rw [kept]
    exact table.below source sourceMember
  identifies := by
    simp only [Identifies]
    rw [List.map_map, show key ∘ rewrite = key from funext kept]
    exact table.identifies
  nextPositive := table.nextPositive

/-- Insert the row built from the next value of the sequence. -/
def insert
    (table : SerialTable key) (build : Int → ρ)
    (keyed : ∀ value, key (build value) = value) : SerialTable key where
  rows := table.rows ++ [build table.nextKey]
  nextKey := table.nextKey + 1
  positive := by
    intro row member
    rcases List.mem_append.mp member with old | new
    · exact table.positive row old
    · rw [List.mem_singleton.mp new, keyed]
      exact table.nextPositive
  below := by
    intro row member
    rcases List.mem_append.mp member with old | new
    · have smaller := table.below row old
      omega
    · rw [List.mem_singleton.mp new, keyed]
      omega
  identifies := by
    simp only [Identifies]
    rw [List.map_append, List.nodup_append]
    refine ⟨table.identifies, List.nodup_singleton _, ?_⟩
    intro old oldMember new newMember
    obtain ⟨row, rowMember, rfl⟩ := List.mem_map.mp oldMember
    obtain ⟨inserted, insertedMember, rfl⟩ := List.mem_map.mp newMember
    rw [List.mem_singleton.mp insertedMember, keyed]
    have smaller := table.below row rowMember
    omega
  nextPositive := by
    have := table.nextPositive
    omega

/-- The row with the given key. -/
def lookup (table : SerialTable key) (value : Int) : Option ρ :=
  table.rows.find? (fun row => key row = value)

@[simp]
theorem rows_update
    (table : SerialTable key) (rewrite : ρ → ρ)
    (kept : ∀ row, key (rewrite row) = key row) :
    (table.update rewrite kept).rows = table.rows.map rewrite := rfl

@[simp]
theorem rows_insert
    (table : SerialTable key) (build : Int → ρ)
    (keyed : ∀ value, key (build value) = value) :
    (table.insert build keyed).rows =
      table.rows ++ [build table.nextKey] := rfl

theorem ext_rows
    {left right : SerialTable key}
    (sameRows : left.rows = right.rows)
    (sameNext : left.nextKey = right.nextKey) :
    left = right := by
  cases left
  cases right
  simp_all

theorem lookup_eq_some
    {table : SerialTable key} {row : ρ} (member : row ∈ table.rows) :
    table.lookup (key row) = some row := by
  simp only [lookup]
  cases found : table.rows.find? (fun other => key other = key row) with
  | none =>
      have missing := List.find?_eq_none.mp found row member
      simp at missing
  | some other =>
      have otherMember : other ∈ table.rows := List.mem_of_find?_eq_some found
      have otherKey : key other = key row := by
        simpa using List.find?_some found
      rw [table.identifies.eq_of_key_eq otherMember member otherKey]

theorem mem_of_lookup
    {table : SerialTable key} {value : Int} {row : ρ}
    (found : table.lookup value = some row) :
    row ∈ table.rows ∧ key row = value := by
  refine ⟨List.mem_of_find?_eq_some found, ?_⟩
  simpa using List.find?_some found

theorem lookup_update
    (table : SerialTable key) (rewrite : ρ → ρ)
    (kept : ∀ row, key (rewrite row) = key row) (value : Int) :
    (table.update rewrite kept).lookup value =
      (table.lookup value).map rewrite := by
  simp only [lookup]
  rw [rows_update, List.find?_map]
  congr 2
  funext row
  simp [kept row]

end SerialTable

end LtlsKitting.Relational
