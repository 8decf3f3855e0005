import LtlsKitting.Web.Custody
import Mathlib.Algebra.Order.BigOperators.Group.List

/-!
# The reset

`reset.php` empties all groups and sets every inventory to the same number.
It can be called by anyone, at any time.  Whether its second statement is
accepted depends on the definition of the column of the tags, which is not
part of the sources; the goods do not depend on it.
-/

namespace LtlsKitting.Web

open LtlsKitting.Php LtlsKitting.Store LtlsKitting.Operations
open LtlsKitting.Sync LtlsKitting.Interaction LtlsKitting.Depot
open LtlsKitting.Relational

/-! ## The statements -/

/-- `UPDATE groups SET ..` -/
def updateGroups (update : GroupRow → GroupRow) (db : Db) : Db :=
  { db with groups := db.groups.map update }

/-- `UPDATE groups SET archived='f'` -/
def clearArchived (db : Db) : Db :=
  updateGroups (fun row => { row with archived := false }) db

/-- `UPDATE groups SET tag_id=''` -/
def blankTags (db : Db) : Db :=
  updateGroups (fun row => { row with tagId := some [] }) db

/-- `UPDATE groups SET count=0` -/
def clearCounts (db : Db) : Db :=
  updateGroups (fun row => { row with count := 0 }) db

/-- `UPDATE classes SET inventory=2500` -/
def fillInventories (db : Db) : Db :=
  { db with
    classes :=
      db.classes.update (fun row => { row with inventory := 2500 })
        (fun _ => rfl) }

/-- The script; the table definition admits the empty tag in some states. -/
def resetAll (admitsBlank : Db → Bool) (db : Db) : Db :=
  let cleared := clearArchived db
  let untagged :=
    if admitsBlank cleared then blankTags cleared else cleared
  fillInventories (clearCounts untagged)

section

variable {db : Db} {admitsBlank : Db → Bool}

/-- What a reset does to the columns of the goods. -/
theorem resetAll_columns (admitsBlank : Db → Bool) (db : Db) :
    (resetAll admitsBlank db).groups.map
          (fun row => (row.key, row.count, row.classId)) =
        db.groups.map (fun row => (row.key, 0, row.classId)) ∧
      (resetAll admitsBlank db).classes.rows =
        db.classes.rows.map (fun row => { row with inventory := 2500 }) := by
  simp only [resetAll, fillInventories, SerialTable.rows_update]
  by_cases blank : admitsBlank (clearArchived db) = true
  · simp only [blank, if_true]
    constructor
    · simp only [clearCounts, blankTags, clearArchived, updateGroups,
        List.map_map]
      rfl
    · rfl
  · simp only [blank, if_false, Bool.false_eq_true]
    constructor
    · simp only [clearCounts, clearArchived, updateGroups, List.map_map]
      rfl
    · rfl

theorem withdrawn_resetAll (classId : Int) :
    (resetAll admitsBlank db).withdrawn classId = 0 := by
  have counts := (resetAll_columns admitsBlank db).1
  have empty :
      ∀ row ∈ (resetAll admitsBlank db).groups, row.count = 0 := by
    intro row member
    have column :
        (row.key, row.count, row.classId) ∈
          db.groups.map (fun row => (row.key, 0, row.classId)) := by
      rw [← counts]
      exact List.mem_map_of_mem member
    obtain ⟨source, _, same⟩ := List.mem_map.mp column
    exact (congrArg (fun columns => columns.2.1) same).symm
  apply columnSum_eq_zero
  intro row member
  rw [empty row member, ite_self]

theorem inventory_resetAll {classId : Int}
    (present :
      classId ∈ (resetAll admitsBlank db).classes.rows.map ClassRow.id) :
    (resetAll admitsBlank db).inventory classId = 2500 := by
  obtain ⟨row, member, rfl⟩ := List.mem_map.mp present
  rw [Db.inventory_eq member]
  rw [(resetAll_columns admitsBlank db).2] at member
  obtain ⟨source, _, rfl⟩ := List.mem_map.mp member
  rfl

theorem resetAll_frame
    (identified : db.GroupsIdentified) (known : ClassesKnown db) :
    (resetAll admitsBlank db).GroupsIdentified ∧
      ClassesKnown (resetAll admitsBlank db) := by
  obtain ⟨groups, classes⟩ := resetAll_columns admitsBlank db
  constructor
  · have keys :
        (resetAll admitsBlank db).groups.map GroupRow.key =
          db.groups.map GroupRow.key := by
      have read := congrArg (List.map Prod.fst) groups
      simpa only [List.map_map, Function.comp_def] using read
    rw [Db.GroupsIdentified, Identifies, keys]
    exact identified
  · intro row member
    have column :
        (row.key, row.count, row.classId) ∈
          db.groups.map (fun row => (row.key, 0, row.classId)) := by
      rw [← groups]
      exact List.mem_map_of_mem member
    obtain ⟨source, sourceMember, same⟩ := List.mem_map.mp column
    have sameClass : source.classId = row.classId :=
      congrArg (fun columns => columns.2.2) same
    obtain ⟨found, foundMember, isClass⟩ := known source sourceMember
    rw [classes]
    exact
      ⟨{ found with inventory := 2500 }, List.mem_map_of_mem foundMember,
        isClass.trans sameClass⟩

end

/-! ## After a reset -/

/-- Of every class there are 2500 items, and none of them is owed. -/
structure Stocked (db : Db) : Prop where
  identified : db.GroupsIdentified
  known : ClassesKnown db
  solvent : db.NonnegInventories
  items :
    ∀ row ∈ db.classes.rows, row.inventory + db.withdrawn row.id = 2500

theorem stocked_resetAll
    (admitsBlank : Db → Bool) {db : Db}
    (identified : db.GroupsIdentified) (known : ClassesKnown db) :
    Stocked (resetAll admitsBlank db) := by
  obtain ⟨newIdentified, newKnown⟩ :=
    @resetAll_frame db admitsBlank identified known
  have filled :
      ∀ row ∈ (resetAll admitsBlank db).classes.rows,
        row.inventory = 2500 := by
    intro row member
    rw [← Db.inventory_eq member]
    exact inventory_resetAll (List.mem_map_of_mem member)
  refine ⟨newIdentified, newKnown, ?_, ?_⟩
  · intro row member
    rw [filled row member]
    decide
  · intro row member
    rw [filled row member, withdrawn_resetAll]
    rfl

/-- Serving orders keeps the depot stocked. -/
theorem Stocked.of_serves
    {before after : Db} {orders : List (Order GroupKey Int)}
    (stocked : Stocked before) (kept : Kept before after)
    (served :
      Follows (Serves before.plan before.labels) orders before.holdings
        after.holdings) :
    Stocked after := by
  have same :
      ∀ classId,
        after.inventory classId + after.withdrawn classId =
          before.inventory classId + before.withdrawn classId := by
    intro classId
    rw [← total_holdings kept.identified, ← total_holdings stocked.identified,
      kept.plan]
    exact total_of_follows served classId
  have solvent :
      ∀ classId, 0 ≤ after.inventory classId :=
    solvent_of_follows served (Db.inventory_nonneg stocked.solvent)
  refine ⟨kept.identified, kept.known, ?_, ?_⟩
  · intro row member
    rw [← Db.inventory_eq member]
    exact solvent row.id
  · intro row member
    have column : row.id ∈ before.classes.rows.map ClassRow.id := by
      rw [← kept.classIds]
      exact List.mem_map_of_mem member
    obtain ⟨source, sourceMember, sameId⟩ := List.mem_map.mp column
    have items := stocked.items source sourceMember
    rw [← Db.inventory_eq member, same, ← sameId,
      Db.inventory_eq sourceMember]
    exact items

section

variable {ι : Type} [DecidableEq ι]

/-- A request of some session, or a reset. -/
def Portal.stepOrReset
    (server : Server) (runtime : Runtime) (admitsBlank : Db → Bool)
    (portal : Portal ι) : Option (ι × HttpRequest) → Portal ι
  | some visit => portal.step server runtime visit
  | none => { portal with db := resetAll admitsBlank portal.db }

/-- After a reset, whatever requests without a script and whatever further
resets follow, there are 2500 items of every class, in stock or in groups. -/
theorem everyState_stocked
    (server : Server) (runtime : Runtime) (admitsBlank : Db → Bool)
    (portal : Portal ι) (identified : portal.db.GroupsIdentified)
    (known : ClassesKnown portal.db)
    (visits : List (Option (ι × HttpRequest)))
    (harmless :
      EveryStep (Portal.stepOrReset server runtime admitsBlank)
        (fun current action =>
          ∀ visit, action = some visit → current.Harmless server visit)
        { portal with db := resetAll admitsBlank portal.db } visits) :
    EveryState (Portal.stepOrReset server runtime admitsBlank)
      (fun current => Stocked current.db)
      { portal with db := resetAll admitsBlank portal.db } visits := by
  apply
    everyState_invariant (fun current : Portal ι => Stocked current.db) _
      (stocked_resetAll admitsBlank identified known) harmless
  intro current action stocked isHarmless
  cases action with
  | none => exact stocked_resetAll admitsBlank stocked.identified stocked.known
  | some visit =>
      obtain ⟨kept, served⟩ :=
        @index_serves server runtime current.db visit.2
          (current.sessions visit.1) stocked.identified stocked.known
          (isHarmless visit rfl)
      exact stocked.of_serves kept served

/-- Bob takes two items after a reset, and there is another reset. -/
theorem everyState_stocked_twoItems :
    EveryState
      (Portal.stepOrReset Server.plain Runtime.twoItems (fun _ => true))
      (fun current => Stocked current.db)
      { staffedPortal with db := resetAll (fun _ => true) staffed }
      [some (true, twoItemsCall), none, some (true, twoItemsCall)] := by
  apply
    everyState_stocked Server.plain Runtime.twoItems (fun _ => true)
      staffedPortal identified_staffed known_staffed
  refine ⟨?_, ?_, ?_, trivial⟩
  · rintro visit ⟨⟩
    exact Or.inr rfl
  · rintro visit ⟨⟩
  · rintro visit ⟨⟩
    exact Or.inr rfl

end

end LtlsKitting.Web
