import LtlsKitting.Store.Effects

/-!
# The take statement and the count update

The take statement lowers the inventory of a class by what a group withdraws;
the count update stores the withdrawn amount in the group.  The results below
say what each of the two statements does to the inventory of a class and to
the amounts its groups hold, under the assumption that (order, kit, id)
identifies at most one group.
-/

namespace LtlsKitting.Store

open LtlsKitting.Php LtlsKitting.Relational

/-- The columns of a group that no synchronisation changes. -/
def GroupRow.fixed (row : GroupRow) : GroupKey × Int × Int × Bool :=
  (row.key, row.target, row.classId, row.archived)

namespace Db

/-- The take statement affects a row: the group exists, its class exists, and
the withdrawn amount is in stock. -/
def Accepts (db : Db) (key : GroupKey) (value : Int) : Prop :=
  ∃ group ∈ db.groups, group.key = key ∧
    ∃ row ∈ db.classes.rows,
      row.id = group.classId ∧ value - group.count ≤ row.inventory

theorem takeSource_eq_some {db : Db} {key : GroupKey} {value : Int}
    {row : ClassRow} {group : GroupRow}
    (found : db.takeSource key value row = some group) :
    group ∈ db.groups ∧ group.key = key ∧ row.id = group.classId ∧
      value - group.count ≤ row.inventory := by
  refine ⟨List.mem_of_find?_eq_some found, ?_⟩
  simpa using List.find?_some found

/-- With an identified group, the join has only that group to offer. -/
theorem takeSource_of_identified {db : Db}
    (identified : db.GroupsIdentified)
    {group : GroupRow} (member : group ∈ db.groups)
    (value : Int) (row : ClassRow) :
    db.takeSource group.key value row =
      if row.id = group.classId ∧ value - group.count ≤ row.inventory then
        some group
      else
        none := by
  cases found : db.takeSource group.key value row with
  | none =>
      have missing := List.find?_eq_none.mp found group member
      have refused :
          ¬ (row.id = group.classId ∧
            value - group.count ≤ row.inventory) := by
        simpa using missing
      rw [if_neg refused]
  | some other =>
      obtain ⟨otherMember, sameKey, sameClass, enough⟩ :=
        takeSource_eq_some found
      have same : other = group :=
        identified.eq_of_key_eq otherMember member sameKey
      subst same
      rw [if_pos ⟨sameClass, enough⟩]

theorem takeFrom_of_identified {db : Db}
    (identified : db.GroupsIdentified)
    {group : GroupRow} (member : group ∈ db.groups)
    (value : Int) (row : ClassRow) :
    db.takeFrom group.key value row =
      if row.id = group.classId ∧ value - group.count ≤ row.inventory then
        { row with inventory := row.inventory - (value - group.count) }
      else
        row := by
  simp only [takeFrom]
  rw [takeSource_of_identified identified member]
  split
  · split at * <;> simp_all
  · split at * <;> simp_all

theorem accepts_iff_affected (db : Db) (key : GroupKey) (value : Int) :
    0 < db.takeAffected key value ↔ db.Accepts key value := by
  simp only [takeAffected]
  rw [List.length_pos_iff_exists_mem]
  constructor
  · rintro ⟨row, filtered⟩
    obtain ⟨member, joined⟩ := List.mem_filter.mp filtered
    obtain ⟨group, found⟩ := Option.isSome_iff_exists.mp joined
    obtain ⟨groupMember, sameKey, sameClass, enough⟩ :=
      takeSource_eq_some found
    exact ⟨group, groupMember, sameKey, row, member, sameClass, enough⟩
  · rintro ⟨group, groupMember, sameKey, row, member, sameClass, enough⟩
    refine ⟨row, List.mem_filter.mpr ⟨member, ?_⟩⟩
    simp only [takeSource]
    rw [List.find?_isSome]
    exact ⟨group, groupMember, by simp [sameKey, enough, ← sameClass]⟩

/-- A refused take leaves the whole database as it was. -/
theorem takeStock_of_not_accepts {db : Db} {key : GroupKey} {value : Int}
    (refused : ¬ db.Accepts key value) :
    db.takeStock key value = db := by
  have unchanged :
      ∀ row ∈ db.classes.rows, db.takeFrom key value row = row := by
    intro row member
    simp only [takeFrom]
    cases found : db.takeSource key value row with
    | none =>
        rfl
    | some group =>
        obtain ⟨groupMember, sameKey, sameClass, enough⟩ :=
          takeSource_eq_some found
        exact
          (refused
            ⟨group, groupMember, sameKey, row, member, sameClass,
              enough⟩).elim
  have sameClasses :
      db.classes.update (db.takeFrom key value) (db.takeFrom_id key value) =
        db.classes := by
    apply SerialTable.ext_rows
    · rw [SerialTable.rows_update]
      exact (List.map_congr_left unchanged).trans (List.map_id _)
    · rfl
  simp only [takeStock]
  rw [sameClasses]

/-- An accepted take lowers the inventory of the group's class by the
withdrawn amount. -/
theorem inventory_takeStock {db : Db}
    (identified : db.GroupsIdentified)
    {group : GroupRow} (member : group ∈ db.groups) {value : Int}
    {row : ClassRow} (rowMember : row ∈ db.classes.rows)
    (sameClass : row.id = group.classId)
    (enough : value - group.count ≤ row.inventory) (classId : Int) :
    (db.takeStock group.key value).inventory classId =
      db.inventory classId -
        (if group.classId = classId then value - group.count else 0) := by
  simp only [inventory, takeStock]
  rw [SerialTable.rows_update,
    columnSum_map_of_identifies db.classes.identifies rowMember]
  · have rewritten :=
      (takeFrom_of_identified identified member value row).trans
        (if_pos ⟨sameClass, enough⟩)
    rw [rewritten]
    by_cases same : group.classId = classId
    · simp only [sameClass, same, ↓reduceIte]
      omega
    · simp [sameClass, same]
  · intro other _ different
    have notJoined :
        ¬ (other.id = group.classId ∧
          value - group.count ≤ other.inventory) := by
      rintro ⟨sameOther, _⟩
      exact different (sameOther.trans sameClass.symm)
    rw [takeFrom_of_identified identified member, if_neg notJoined]

/-- A take never makes an inventory negative. -/
theorem nonneg_takeStock {db : Db}
    (nonneg : db.NonnegInventories) (key : GroupKey) (value : Int) :
    (db.takeStock key value).NonnegInventories := by
  intro row member
  obtain ⟨source, sourceMember, rfl⟩ := List.mem_map.mp member
  simp only [takeFrom]
  cases found : db.takeSource key value source with
  | none =>
      exact nonneg source sourceMember
  | some group =>
      obtain ⟨_, _, _, enough⟩ := takeSource_eq_some found
      change 0 ≤ source.inventory - (value - group.count)
      omega

/-- The count update changes what the groups of the class hold by the
difference of the counts. -/
theorem withdrawn_setCount {db : Db}
    (identified : db.GroupsIdentified)
    {group : GroupRow} (member : group ∈ db.groups)
    (value classId : Int) :
    (db.setCount group.key value).withdrawn classId =
      db.withdrawn classId +
        (if group.classId = classId then value - group.count else 0) := by
  simp only [withdrawn, setCount, updateWhere]
  rw [columnSum_map_of_identifies identified member]
  · by_cases same : group.classId = classId
    · simp [same]
    · simp [same]
  · intro other _ different
    simp [different]

/-- A count update without its group changes nothing. -/
theorem setCount_of_missing {db : Db} {key : GroupKey}
    (missing : ∀ group ∈ db.groups, group.key ≠ key) (value : Int) :
    db.setCount key value = db := by
  simp only [setCount]
  rw [updateWhere_eq_self missing]

@[simp]
theorem inventory_setCount (db : Db) (key : GroupKey) (value classId : Int) :
    (db.setCount key value).inventory classId = db.inventory classId := rfl

@[simp]
theorem inventory_setTag
    (db : Db) (key : GroupKey) (tag : Option Bytes) (classId : Int) :
    (db.setTag key tag).inventory classId = db.inventory classId := rfl

@[simp]
theorem withdrawn_takeStock
    (db : Db) (key : GroupKey) (value classId : Int) :
    (db.takeStock key value).withdrawn classId = db.withdrawn classId := rfl

/-- Tagging a group does not change its count. -/
@[simp]
theorem withdrawn_setTag
    (db : Db) (key : GroupKey) (tag : Option Bytes) (classId : Int) :
    (db.setTag key tag).withdrawn classId = db.withdrawn classId := by
  simp only [withdrawn, setTag, columnSum]
  rw [map_updateWhere]
  intro row _ _
  rfl

/-! ## The columns that stay -/

theorem fixed_setCount (db : Db) (key : GroupKey) (value : Int) :
    (db.setCount key value).groups.map GroupRow.fixed =
      db.groups.map GroupRow.fixed :=
  map_updateWhere (fun _ _ _ => rfl)

theorem fixed_setTag (db : Db) (key : GroupKey) (tag : Option Bytes) :
    (db.setTag key tag).groups.map GroupRow.fixed =
      db.groups.map GroupRow.fixed :=
  map_updateWhere (fun _ _ _ => rfl)

/-- Whether the groups are identified depends on the fixed columns only. -/
theorem groupsIdentified_of_fixed {first second : Db}
    (same :
      first.groups.map GroupRow.fixed = second.groups.map GroupRow.fixed)
    (identified : first.GroupsIdentified) :
    second.GroupsIdentified := by
  have keys :
      ∀ rows : List GroupRow,
        rows.map GroupRow.key = (rows.map GroupRow.fixed).map Prod.fst := by
    intro rows
    rw [List.map_map]
    rfl
  unfold GroupsIdentified Identifies at *
  rw [keys, ← same, ← keys]
  exact identified

end Db

end LtlsKitting.Store
