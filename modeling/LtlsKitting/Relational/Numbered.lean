import LtlsKitting.Relational.Rows

/-!
# Rows numbered within a parent

A parent row has a counter, and every child row names its parent and carries
a number.  The numbers of the children of a parent are those below its
counter, each once.  The counter is raised by one when a child is inserted,
and the child receives the old value.
-/

namespace LtlsKitting.Relational

variable {ρ χ κ : Type} [DecidableEq κ]

/-- The numbers from zero up to the counter, each once. -/
structure Counted (numbers : List Int) (counter : Int) : Prop where
  nonneg : 0 ≤ counter
  nodup : numbers.Nodup
  mem_iff : ∀ number, number ∈ numbers ↔ 0 ≤ number ∧ number < counter

theorem counted_nil : Counted [] 0 := by
  refine ⟨Int.le_refl 0, List.nodup_nil, ?_⟩
  intro number
  constructor
  · intro impossible
    cases impossible
  · intro bounds
    omega

theorem Counted.append
    {numbers : List Int} {counter : Int} (counted : Counted numbers counter) :
    Counted (numbers ++ [counter]) (counter + 1) := by
  have fresh : counter ∉ numbers := by
    intro member
    have bounds := (counted.mem_iff counter).mp member
    omega
  refine ⟨?_, ?_, ?_⟩
  · have := counted.nonneg
    omega
  · rw [← List.concat_eq_append]
    exact counted.nodup.concat fresh
  · intro number
    have nonneg := counted.nonneg
    rw [List.mem_append, counted.mem_iff, List.mem_singleton]
    omega

/-- How the numbers of the children are related to the parents. -/
structure Numbering (ρ χ κ : Type) where
  key : ρ → κ
  counter : ρ → Int
  parent : χ → κ
  number : χ → Int

variable (numbering : Numbering ρ χ κ)

/-- The numbers of the children of a parent. -/
def Numbering.numbers (children : List χ) (key : κ) : List Int :=
  (children.filter (fun child => numbering.parent child = key)).map
    numbering.number

theorem Numbering.numbers_append
    (children : List χ) (child : χ) (key : κ) :
    numbering.numbers (children ++ [child]) key =
      numbering.numbers children key ++
        if numbering.parent child = key then [numbering.number child]
        else [] := by
  simp only [Numbering.numbers]
  rw [List.filter_append, List.map_append]
  by_cases same : numbering.parent child = key
  · simp [same]
  · simp [same]

/-- Every parent has the children that its counter counts, and every child
has a parent. -/
structure Numbered (parents : List ρ) (children : List χ) : Prop where
  counted :
    ∀ row ∈ parents,
      Counted (numbering.numbers children (numbering.key row))
        (numbering.counter row)
  adopted :
    ∀ child ∈ children, ∃ row ∈ parents,
      numbering.key row = numbering.parent child

namespace Numbered

variable {numbering} {parents : List ρ} {children : List χ}

theorem nil : Numbered numbering [] [] where
  counted := by
    intro row member
    cases member
  adopted := by
    intro child member
    cases member

/-- The parent and the number identify a child. -/
theorem identifies (numbered : Numbered numbering parents children) :
    Identifies (fun child => (numbering.parent child, numbering.number child))
      children := by
  simp only [Identifies, List.Nodup]
  rw [List.pairwise_map, List.pairwise_iff_forall_sublist]
  intro first second sublist samePair
  have sameParent : numbering.parent first = numbering.parent second :=
    congrArg Prod.fst samePair
  have sameNumber : numbering.number first = numbering.number second :=
    congrArg Prod.snd samePair
  have firstMember : first ∈ children := sublist.subset (by simp)
  obtain ⟨row, rowMember, adopted⟩ := numbered.adopted first firstMember
  have nodup := (numbered.counted row rowMember).nodup
  have both :
      [numbering.number first, numbering.number second].Sublist
        (numbering.numbers children (numbering.key row)) := by
    have kept :
        ([first, second].filter
            (fun child => numbering.parent child = numbering.key row)) =
          [first, second] := by
      simp [adopted, ← sameParent]
    have filtered :=
      sublist.filter
        (fun child => decide (numbering.parent child = numbering.key row))
    rw [kept] at filtered
    exact filtered.map numbering.number
  have distinct := nodup.sublist both
  rw [List.nodup_cons] at distinct
  exact distinct.1 (by simp [sameNumber])

/-- Only the columns of the numbering matter. -/
theorem congr
    {newParents : List ρ} {newChildren : List χ}
    (numbered : Numbered numbering parents children)
    (sameParents :
      newParents.map (fun row => (numbering.key row, numbering.counter row)) =
        parents.map (fun row => (numbering.key row, numbering.counter row)))
    (sameChildren :
      newChildren.map
          (fun child => (numbering.parent child, numbering.number child)) =
        children.map
          (fun child => (numbering.parent child, numbering.number child))) :
    Numbered numbering newParents newChildren := by
  have numbers :
      ∀ key,
        numbering.numbers newChildren key = numbering.numbers children key := by
    intro key
    have columns :
        ∀ rows : List χ,
          numbering.numbers rows key =
            ((rows.map
                (fun child =>
                  (numbering.parent child, numbering.number child))).filter
              (fun pair => pair.1 = key)).map Prod.snd := by
      intro rows
      rw [List.filter_map, List.map_map]
      rfl
    rw [columns, sameChildren, ← columns]
  have sameRow :
      ∀ row ∈ newParents, ∃ old ∈ parents,
        numbering.key old = numbering.key row ∧
          numbering.counter old = numbering.counter row := by
    intro row member
    have column := List.mem_map_of_mem
      (f := fun row => (numbering.key row, numbering.counter row)) member
    rw [sameParents] at column
    obtain ⟨old, oldMember, same⟩ := List.mem_map.mp column
    exact
      ⟨old, oldMember, congrArg Prod.fst same, congrArg Prod.snd same⟩
  have oldRow :
      ∀ old ∈ parents, ∃ row ∈ newParents,
        numbering.key row = numbering.key old := by
    intro old member
    have column := List.mem_map_of_mem
      (f := fun row => (numbering.key row, numbering.counter row)) member
    rw [← sameParents] at column
    obtain ⟨row, rowMember, same⟩ := List.mem_map.mp column
    exact ⟨row, rowMember, congrArg Prod.fst same⟩
  constructor
  · intro row member
    obtain ⟨old, oldMember, sameKey, sameCounter⟩ := sameRow row member
    rw [numbers, ← sameKey, ← sameCounter]
    exact numbered.counted old oldMember
  · intro child member
    have column := List.mem_map_of_mem
      (f := fun child => (numbering.parent child, numbering.number child))
      member
    rw [sameChildren] at column
    obtain ⟨old, oldMember, same⟩ := List.mem_map.mp column
    obtain ⟨parent, parentMember, adopted⟩ := numbered.adopted old oldMember
    obtain ⟨row, rowMember, sameKey⟩ := oldRow parent parentMember
    refine ⟨row, rowMember, ?_⟩
    rw [sameKey, adopted]
    exact congrArg Prod.fst same

/-- A new parent with a new key starts without children. -/
theorem insertParent
    (numbered : Numbered numbering parents children)
    {row : ρ} (zero : numbering.counter row = 0)
    (fresh : ∀ old ∈ parents, numbering.key old ≠ numbering.key row) :
    Numbered numbering (parents ++ [row]) children := by
  constructor
  · intro parent member
    rcases List.mem_append.mp member with old | new
    · exact numbered.counted parent old
    · rw [List.mem_singleton.mp new, zero]
      have none :
          numbering.numbers children (numbering.key row) = [] := by
        simp only [Numbering.numbers]
        rw [List.map_eq_nil_iff, List.filter_eq_nil_iff]
        intro child childMember
        obtain ⟨owner, ownerMember, adopted⟩ :=
          numbered.adopted child childMember
        rw [← adopted]
        simpa using fresh owner ownerMember
      rw [none]
      exact counted_nil
  · intro child member
    obtain ⟨parent, parentMember, adopted⟩ := numbered.adopted child member
    exact ⟨parent, List.mem_append_left _ parentMember, adopted⟩

/-- A new child receives the counter of its parent, which is raised. -/
theorem insertChild
    (numbered : Numbered numbering parents children)
    (identified : Identifies numbering.key parents)
    {row : ρ} (member : row ∈ parents) {child : χ}
    (sameParent : numbering.parent child = numbering.key row)
    (next : numbering.number child = numbering.counter row)
    {raise : ρ → ρ}
    (keyKept : ∀ other, numbering.key (raise other) = numbering.key other)
    (raised :
      ∀ other, numbering.counter (raise other) =
        if numbering.key other = numbering.key row then
          numbering.counter other + 1
        else
          numbering.counter other) :
    Numbered numbering (parents.map raise) (children ++ [child]) := by
  constructor
  · intro parent parentMember
    obtain ⟨old, oldMember, rfl⟩ := List.mem_map.mp parentMember
    have counted := numbered.counted old oldMember
    rw [keyKept, raised, numbering.numbers_append, sameParent, next]
    by_cases same : numbering.key old = numbering.key row
    · have sameRow := identified.eq_of_key_eq oldMember member same
      subst sameRow
      rw [if_pos rfl, if_pos rfl]
      exact counted.append
    · rw [if_neg same, if_neg (fun equal => same equal.symm),
        List.append_nil]
      exact counted
  · intro newChild newMember
    rcases List.mem_append.mp newMember with old | new
    · obtain ⟨parent, parentMember, adopted⟩ := numbered.adopted newChild old
      exact
        ⟨raise parent, List.mem_map_of_mem parentMember,
          (keyKept parent).trans adopted⟩
    · rw [List.mem_singleton.mp new]
      exact
        ⟨raise row, List.mem_map_of_mem member,
          (keyKept row).trans sameParent.symm⟩

end Numbered

end LtlsKitting.Relational
