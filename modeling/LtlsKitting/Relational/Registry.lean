import Mathlib.Data.List.Nodup

/-!
# Registries

A registry lists keys with values, in the order in which the keys were first
entered.  An entry names a key, which is added with a fresh value if it is
missing, and it may set the value.  What a sequence of entries leaves is
described by the keys that it adds and by the last value that it sets for a
key.

A block of entries in front of others leaves no trace exactly if the keys that
it adds are the first ones that the others would add, and each value that it
sets is set again or was in force before.
-/

namespace LtlsKitting.Relational

universe u v

variable {κ : Type u} {ν : Type v} [DecidableEq κ]

abbrev Registry (κ : Type u) (ν : Type v) := List (κ × ν)

namespace Registry

def keys (registry : Registry κ ν) : List κ :=
  registry.map Prod.fst

/-- The key is added if it is missing. -/
def ensure (fresh : ν) (registry : Registry κ ν) (key : κ) : Registry κ ν :=
  if key ∈ registry.keys then registry else registry ++ [(key, fresh)]

/-- The value of the key is replaced. -/
def assign (registry : Registry κ ν) (key : κ) (value : ν) :
    Registry κ ν :=
  registry.map (fun row => if row.1 = key then (row.1, value) else row)

def enter
    (fresh : ν) (registry : Registry κ ν) (entry : κ × Option ν) :
    Registry κ ν :=
  match entry.2 with
  | none => registry.ensure fresh entry.1
  | some value => (registry.ensure fresh entry.1).assign entry.1 value

def enterAll
    (fresh : ν) (registry : Registry κ ν) (entries : List (κ × Option ν)) :
    Registry κ ν :=
  entries.foldl (enter fresh) registry

/-- The value of a key; a missing key would be fresh. -/
def value (fresh : ν) (registry : Registry κ ν) (key : κ) : ν :=
  ((registry.find? (fun row => row.1 = key)).map Prod.snd).getD fresh

end Registry

/-- The keys of the list that are not known, in the order in which they first
appear. -/
def newKeys : List κ → List κ → List κ
  | _, [] => []
  | known, key :: rest =>
      if key ∈ known then
        newKeys known rest
      else
        key :: newKeys (known ++ [key]) rest

/-- The last value that the entries set for a key. -/
def lastSet (key : κ) : List (κ × Option ν) → Option ν
  | [] => none
  | entry :: rest =>
      (lastSet key rest).or (if entry.1 = key then entry.2 else none)

/-! ## New keys -/

/-- Only the set of the known keys matters. -/
theorem newKeys_congr
    {first second : List κ} (same : ∀ key, key ∈ first ↔ key ∈ second)
    (list : List κ) : newKeys first list = newKeys second list := by
  induction list generalizing first second with
  | nil =>
      rfl
  | cons key rest inductionHypothesis =>
      have extended :
          ∀ other, other ∈ first ++ [key] ↔ other ∈ second ++ [key] := by
        intro other
        rw [List.mem_append, List.mem_append, same]
      rw [newKeys, newKeys, inductionHypothesis same,
        inductionHypothesis extended]
      by_cases known : key ∈ second
      · rw [if_pos known, if_pos ((same key).mpr known)]
      · rw [if_neg known, if_neg (fun member => known ((same key).mp member))]

theorem newKeys_append (known first second : List κ) :
    newKeys known (first ++ second) =
      newKeys known first ++ newKeys (known ++ newKeys known first) second := by
  induction first generalizing known with
  | nil =>
      rw [List.nil_append, newKeys, List.append_nil, List.nil_append]
  | cons key rest inductionHypothesis =>
      rw [List.cons_append, newKeys, newKeys]
      split
      · exact inductionHypothesis known
      · rw [inductionHypothesis, List.cons_append, List.append_assoc,
          List.singleton_append]

theorem mem_newKeys_iff (known list : List κ) (key : κ) :
    key ∈ newKeys known list ↔ key ∈ list ∧ key ∉ known := by
  induction list generalizing known with
  | nil =>
      simp [newKeys]
  | cons first rest inductionHypothesis =>
      rw [newKeys]
      by_cases member : first ∈ known
      · rw [if_pos member, inductionHypothesis]
        constructor
        · rintro ⟨inRest, new⟩
          exact ⟨List.mem_cons_of_mem _ inRest, new⟩
        · rintro ⟨inList, new⟩
          rcases List.mem_cons.mp inList with rfl | inRest
          · exact absurd member new
          · exact ⟨inRest, new⟩
      · rw [if_neg member, List.mem_cons, inductionHypothesis, List.mem_cons]
        by_cases isFirst : key = first
        · simp [isFirst, member]
        · simp [isFirst]

theorem nodup_newKeys (known list : List κ) : (newKeys known list).Nodup := by
  induction list generalizing known with
  | nil =>
      exact List.nodup_nil
  | cons first rest inductionHypothesis =>
      rw [newKeys]
      split
      · exact inductionHypothesis known
      · refine List.nodup_cons.mpr ⟨?_, inductionHypothesis _⟩
        rw [mem_newKeys_iff]
        simp

/-- More known keys are left out. -/
theorem newKeys_append_known (known extra list : List κ) :
    newKeys (known ++ extra) list =
      (newKeys known list).filter (fun key => key ∉ extra) := by
  induction list generalizing known with
  | nil =>
      rfl
  | cons first rest inductionHypothesis =>
      rw [newKeys, newKeys]
      by_cases isKnown : first ∈ known
      · rw [if_pos isKnown, if_pos (List.mem_append_left _ isKnown)]
        exact inductionHypothesis known
      · rw [if_neg isKnown, List.filter_cons, ← inductionHypothesis]
        by_cases isExtra : first ∈ extra
        · rw [if_pos (List.mem_append_right _ isExtra),
            if_neg (by simpa using isExtra)]
          apply newKeys_congr
          intro key
          simp only [List.mem_append, List.mem_singleton]
          constructor
          · rintro (member | member)
            · exact Or.inl (Or.inl member)
            · exact Or.inr member
          · rintro ((member | rfl) | member)
            · exact Or.inl member
            · exact Or.inr isExtra
            · exact Or.inr member
        · have isNew : first ∉ known ++ extra := by
            simp [isKnown, isExtra]
          rw [if_neg isNew, if_pos (by simpa using isExtra)]
          congr 1
          apply newKeys_congr
          intro key
          simp only [List.mem_append, List.mem_singleton]
          exact or_right_comm

/-- A block of keys in front of others adds nothing and changes no order
exactly if it adds what the others would add first. -/
theorem newKeys_append_eq_iff (known block rest : List κ) :
    newKeys known (block ++ rest) = newKeys known rest ↔
      newKeys known block <+: newKeys known rest := by
  rw [newKeys_append, newKeys_append_known]
  constructor
  · intro same
    exact ⟨_, same⟩
  · rintro ⟨later, isLater⟩
    have once := nodup_newKeys known rest
    rw [← isLater] at once ⊢
    congr 1
    rw [List.filter_append]
    have none :
        (newKeys known block).filter
            (fun key => key ∉ newKeys known block) = [] := by
      rw [List.filter_eq_nil_iff]
      intro key member
      simpa using member
    have all :
        later.filter (fun key => key ∉ newKeys known block) = later := by
      rw [List.filter_eq_self]
      intro key member
      have apart := (List.nodup_append.mp once).2.2
      simpa using fun inBlock => apart key inBlock key member rfl
    rw [none, all, List.nil_append]

/-! ## What entries leave -/

theorem lastSet_append
    (key : κ) (first second : List (κ × Option ν)) :
    lastSet key (first ++ second) =
      (lastSet key second).or (lastSet key first) := by
  induction first with
  | nil =>
      simp [lastSet]
  | cons entry rest inductionHypothesis =>
      rw [List.cons_append, lastSet, lastSet, inductionHypothesis,
        Option.or_assoc]

namespace Registry

variable (fresh : ν)

theorem keys_assign (registry : Registry κ ν) (key : κ) (value : ν) :
    (registry.assign key value).keys = registry.keys := by
  simp only [keys, assign, List.map_map]
  apply List.map_congr_left
  intro row _
  simp only [Function.comp]
  split <;> rfl

theorem keys_ensure (registry : Registry κ ν) (key : κ) :
    (registry.ensure fresh key).keys =
      registry.keys ++ newKeys registry.keys [key] := by
  simp only [ensure, newKeys]
  split
  · rw [List.append_nil]
  · rw [keys, List.map_append]
    rfl

theorem keys_enter (registry : Registry κ ν) (entry : κ × Option ν) :
    (registry.enter fresh entry).keys =
      registry.keys ++ newKeys registry.keys [entry.1] := by
  rw [← keys_ensure fresh, enter]
  split
  · rfl
  · rw [keys_assign]

/-- The keys that entries leave. -/
theorem keys_enterAll
    (registry : Registry κ ν) (entries : List (κ × Option ν)) :
    (registry.enterAll fresh entries).keys =
      registry.keys ++ newKeys registry.keys (entries.map Prod.fst) := by
  induction entries generalizing registry with
  | nil =>
      rw [List.map_nil, newKeys, List.append_nil]
      rfl
  | cons entry rest inductionHypothesis =>
      have later := inductionHypothesis (registry.enter fresh entry)
      have split :=
        newKeys_append registry.keys [entry.1] (rest.map Prod.fst)
      rw [keys_enter, List.append_assoc, ← split] at later
      exact later

theorem nodup_enterAll
    {registry : Registry κ ν} (once : registry.keys.Nodup)
    (entries : List (κ × Option ν)) :
    (registry.enterAll fresh entries).keys.Nodup := by
  rw [keys_enterAll, List.nodup_append]
  refine ⟨once, nodup_newKeys _ _, ?_⟩
  rintro key member other new rfl
  exact ((mem_newKeys_iff _ _ _).mp new).2 member

theorem value_ensure (registry : Registry κ ν) (key other : κ) :
    (registry.ensure fresh key).value fresh other =
      registry.value fresh other := by
  simp only [ensure]
  split
  · rfl
  · simp only [value, List.find?_append]
    cases found : registry.find? (fun row => row.1 = other) with
    | some row =>
        rfl
    | none =>
        by_cases same : key = other
        · simp [same]
        · simp [same]

theorem value_assign
    {registry : Registry κ ν} {key : κ} (member : key ∈ registry.keys)
    (value : ν) (other : κ) :
    (registry.assign key value).value fresh other =
      if key = other then value else registry.value fresh other := by
  have sameKey :
      ((fun row : κ × ν => decide (row.1 = other)) ∘ fun row =>
          if row.1 = key then (row.1, value) else row) =
        fun row => decide (row.1 = other) := by
    funext row
    simp only [Function.comp]
    split <;> rfl
  simp only [Registry.value, assign, List.find?_map, sameKey]
  by_cases same : key = other
  · subst same
    obtain ⟨row, rowMember, isKey⟩ := List.mem_map.mp member
    cases found : registry.find? (fun row => row.1 = key) with
    | none =>
        exact
          absurd (by simpa using isKey)
            (List.find?_eq_none.mp found row rowMember)
    | some first =>
        have isFirst : first.1 = key := by
          simpa using List.find?_some found
        simp [isFirst]
  · rw [if_neg same]
    cases found : registry.find? (fun row => row.1 = other) with
    | none =>
        rfl
    | some first =>
        have isFirst : first.1 = other := by
          simpa using List.find?_some found
        have different : first.1 ≠ key := by
          rw [isFirst]
          exact Ne.symm same
        simp [different]

theorem mem_keys_ensure (registry : Registry κ ν) (key : κ) :
    key ∈ (registry.ensure fresh key).keys := by
  rw [keys_ensure, List.mem_append, mem_newKeys_iff]
  by_cases known : key ∈ registry.keys
  · exact Or.inl known
  · exact Or.inr ⟨List.mem_singleton_self key, known⟩

theorem value_enter
    (registry : Registry κ ν) (entry : κ × Option ν) (key : κ) :
    (registry.enter fresh entry).value fresh key =
      (if entry.1 = key then entry.2 else none).getD
        (registry.value fresh key) := by
  obtain ⟨name, set⟩ := entry
  cases set with
  | none =>
      rw [enter, value_ensure, ite_self]
      rfl
  | some value =>
      rw [enter, value_assign fresh (mem_keys_ensure fresh registry name),
        value_ensure]
      split <;> rfl

/-- The values that entries leave. -/
theorem value_enterAll
    (registry : Registry κ ν) (entries : List (κ × Option ν)) (key : κ) :
    (registry.enterAll fresh entries).value fresh key =
      (lastSet key entries).getD (registry.value fresh key) := by
  induction entries generalizing registry with
  | nil =>
      rfl
  | cons entry rest inductionHypothesis =>
      have later := inductionHypothesis (registry.enter fresh entry)
      rw [value_enter] at later
      rw [lastSet]
      refine later.trans ?_
      cases lastSet key rest with
      | some value => rfl
      | none => rfl

/-- A registry is determined by its keys and their values. -/
theorem eq_map_value {registry : Registry κ ν} (once : registry.keys.Nodup) :
    registry =
      registry.keys.map (fun key => (key, registry.value fresh key)) := by
  rw [keys, List.map_map]
  conv_lhs => rw [← List.map_id registry]
  apply List.map_congr_left
  intro row member
  simp only [Function.comp, id, value]
  cases found : registry.find? (fun other => other.1 = row.1) with
  | none =>
      exact absurd (by simp) (List.find?_eq_none.mp found row member)
  | some first =>
      have sameKey : first.1 = row.1 := by
        simpa using List.find?_some found
      have isRow : first = row :=
        List.inj_on_of_nodup_map once (List.mem_of_find?_eq_some found) member
          sameKey
      rw [isRow]
      rfl

/-- A block of entries leaves no trace behind the entries that follow it
exactly if the keys it adds are the first ones that they would add, and what
it sets is set again or was in force. -/
theorem enterAll_append_eq_iff
    {registry : Registry κ ν} (once : registry.keys.Nodup)
    (block rest : List (κ × Option ν)) :
    registry.enterAll fresh (block ++ rest) = registry.enterAll fresh rest ↔
      newKeys registry.keys (block.map Prod.fst) <+:
          newKeys registry.keys (rest.map Prod.fst) ∧
        ∀ key value, lastSet key block = some value →
          lastSet key rest = none → registry.value fresh key = value := by
  have sameKeys :
      (registry.enterAll fresh (block ++ rest)).keys =
          (registry.enterAll fresh rest).keys ↔
        newKeys registry.keys (block.map Prod.fst) <+:
          newKeys registry.keys (rest.map Prod.fst) := by
    rw [keys_enterAll, keys_enterAll, List.append_right_inj, List.map_append,
      newKeys_append_eq_iff]
  constructor
  · intro same
    refine ⟨sameKeys.mp (congrArg keys same), ?_⟩
    intro key value isSet unset
    have sameValue :=
      congrArg (fun left => Registry.value fresh left key) same
    simp only [value_enterAll, lastSet_append, isSet, unset, Option.none_or,
      Option.getD_some, Option.getD_none] at sameValue
    exact sameValue.symm
  · rintro ⟨first, inForce⟩
    rw [eq_map_value fresh (nodup_enterAll fresh once (block ++ rest)),
      eq_map_value fresh (nodup_enterAll fresh once rest), sameKeys.mpr first]
    apply List.map_congr_left
    intro key _
    rw [value_enterAll, value_enterAll, lastSet_append]
    cases unset : lastSet key rest with
    | some later =>
        rfl
    | none =>
        cases isSet : lastSet key block with
        | none => rfl
        | some value => rw [inForce key value isSet unset]; rfl

end Registry

end LtlsKitting.Relational
