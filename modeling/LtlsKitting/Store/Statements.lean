import LtlsKitting.Store.Consistency

/-!
# What every statement keeps

The numbers of kits and groups are drawn in the statements that insert them,
so every statement keeps the numbering, in any state.  The catalogue, with
different descriptions and a class for every group, is kept by every statement
that finds what its request relies on: the insertion of a class that is still
missing, and the insertion of a group whose class is still there.
-/

namespace LtlsKitting.Store

open LtlsKitting.Php LtlsKitting.Relational LtlsKitting.Interaction

namespace Db

/-- Kits are numbered within their order, groups within their kit, and no tag
is listed twice. -/
structure Enumerated (db : Db) : Prop where
  kits : Numbered kitNumbering db.orders.rows db.kits
  groups : Numbered groupNumbering db.kits db.groups
  tags : db.tags.Nodup

/-- Classes have different descriptions, and every group has a class. -/
structure Catalogued (db : Db) : Prop where
  descriptions : Identifies ClassRow.description db.classes.rows
  classes :
    ∀ group ∈ db.groups, ∃ row ∈ db.classes.rows, row.id = group.classId

/-- The ids and descriptions of the classes. -/
def catalogue (db : Db) : List (Int × Bytes) :=
  db.classes.rows.map (fun row => (row.id, row.description))

theorem enumerated_empty (users : SerialTable UserRow.id) :
    Enumerated { empty with users := users } :=
  ⟨Numbered.nil, Numbered.nil, List.nodup_nil⟩

/-- The class is found in the catalogue. -/
theorem mem_catalogue_iff {db : Db} {id : Int} :
    id ∈ db.catalogue.map Prod.fst ↔
      ∃ row ∈ db.classes.rows, row.id = id := by
  rw [catalogue, List.map_map]
  exact List.mem_map

/-- Only the catalogue and the classes of the groups matter. -/
theorem Catalogued.congr {db new : Db} (catalogued : db.Catalogued)
    (sameCatalogue : new.catalogue = db.catalogue)
    (sameGroups :
      new.groups.map GroupRow.classId = db.groups.map GroupRow.classId) :
    new.Catalogued := by
  constructor
  · have descriptions :
        new.classes.rows.map ClassRow.description =
          db.classes.rows.map ClassRow.description :=
      map_columns sameCatalogue Prod.snd
    rw [Identifies, descriptions]
    exact catalogued.descriptions
  · intro group member
    have column : group.classId ∈ db.groups.map GroupRow.classId := by
      rw [← sameGroups]
      exact List.mem_map_of_mem member
    obtain ⟨old, oldMember, sameClass⟩ := List.mem_map.mp column
    rw [← mem_catalogue_iff, sameCatalogue, mem_catalogue_iff, ← sameClass]
    exact catalogued.classes old oldMember

end Db

section

variable {db : Db}

/-! ## The numbering -/

/-- Every statement keeps the numbering, whatever the state is. -/
theorem enumerated_perform
    (server : Server) (enumerated : db.Enumerated) (effect : Effect) :
    (perform server effect db).2.Enumerated := by
  obtain ⟨kits, groups, tags⟩ := enumerated
  cases effect with
  | takeStock key value => exact ⟨kits, groups, tags⟩
  | setCount key value =>
      exact
        ⟨kits, groups.congr rfl (map_updateWhere (fun _ _ _ => rfl)), tags⟩
  | freeTag => exact ⟨kits, groups, tags⟩
  | setTag key tag =>
      exact
        ⟨kits, groups.congr rfl (map_updateWhere (fun _ _ _ => rfl)), tags⟩
  | setStatus orderId kitId status =>
      exact
        ⟨kits.congr rfl (map_updateWhere (fun _ _ _ => rfl)),
          groups.congr (map_updateWhere (fun _ _ _ => rfl)) rfl, tags⟩
  | kitGoals orderId kitId => exact ⟨kits, groups, tags⟩
  | findOrder orderId => exact ⟨kits, groups, tags⟩
  | findKit orderId kitId => exact ⟨kits, groups, tags⟩
  | truncate => exact Db.enumerated_empty db.users
  | insertOrder =>
      refine ⟨kits.insertParent rfl ?_, groups, tags⟩
      intro old member
      exact ne_of_lt (db.orders.below old member)
  | insertKit orderId =>
      obtain ⟨newKits, newGroups⟩ :=
        Db.numbered_insertKit kits groups server.defaults.status orderId
      exact ⟨newKits, newGroups, tags⟩
  | findClass description => exact ⟨kits, groups, tags⟩
  | insertClass description => exact ⟨kits, groups, tags⟩
  | setInventory classId value => exact ⟨kits, groups, tags⟩
  | insertTag tag =>
      obtain ⟨sameOrders, sameKits, sameGroups, _⟩ :=
        Db.tables_insertTag db server.encoding tag
      change (db.insertTag server.encoding tag).Enumerated
      refine ⟨?_, ?_, Db.nodup_insertTag tags server.encoding tag⟩
      · rw [sameOrders, sameKits]
        exact kits
      · rw [sameKits, sameGroups]
        exact groups
  | insertGroup orderId kitId row =>
      obtain ⟨newKits, newGroups⟩ :=
        Db.numbered_insertGroup kits groups server.encoding orderId kitId row
      refine ⟨newKits, newGroups, ?_⟩
      change (db.insertGroup server.encoding orderId kitId row).tags.Nodup
      simp only [Db.insertGroup]
      split
      · split <;> exact tags
      · exact tags
  | insertUser username password =>
      change (db.insertUser server username password).Enumerated
      simp only [Db.insertUser]
      split <;> exact ⟨kits, groups, tags⟩
  | findUserByName username => exact ⟨kits, groups, tags⟩
  | findUserByPassword password => exact ⟨kits, groups, tags⟩
  | assignKit userId kitId =>
      exact
        ⟨kits.congr rfl (map_updateWhere (fun _ _ _ => rfl)),
          groups.congr (map_updateWhere (fun _ _ _ => rfl)) rfl, tags⟩
  | listOrders => exact ⟨kits, groups, tags⟩
  | listKits orderId => exact ⟨kits, groups, tags⟩
  | shell command => exact ⟨kits, groups, tags⟩

/-! ## The catalogue -/

/-- The effect may change the catalogue or insert a group. -/
def Effect.catalogues : Effect → Bool
  | .truncate | .insertClass _ | .insertGroup _ _ _ => true
  | _ => false

theorem loads_of_catalogues {effect : Effect}
    (keeps : effect.loads = false) : effect.catalogues = false := by
  cases effect <;> first | rfl | cases keeps

theorem catalogue_perform
    (server : Server) {effect : Effect} (keeps : effect.catalogues = false)
    (db : Db) :
    (perform server effect db).2.catalogue = db.catalogue ∧
      (perform server effect db).2.groups.map GroupRow.classId =
        db.groups.map GroupRow.classId := by
  cases effect with
  | takeStock key value =>
      refine ⟨?_, rfl⟩
      change (db.classes.rows.map (db.takeFrom key value)).map _ = _
      rw [List.map_map]
      apply List.map_congr_left
      intro row _
      simp only [Function.comp, Db.takeFrom]
      split <;> rfl
  | setCount key value => exact ⟨rfl, map_updateWhere (fun _ _ _ => rfl)⟩
  | freeTag => exact ⟨rfl, rfl⟩
  | setTag key tag => exact ⟨rfl, map_updateWhere (fun _ _ _ => rfl)⟩
  | setStatus orderId kitId status => exact ⟨rfl, rfl⟩
  | kitGoals orderId kitId => exact ⟨rfl, rfl⟩
  | findOrder orderId => exact ⟨rfl, rfl⟩
  | findKit orderId kitId => exact ⟨rfl, rfl⟩
  | truncate => cases keeps
  | insertOrder => exact ⟨rfl, rfl⟩
  | insertKit orderId => exact ⟨rfl, rfl⟩
  | findClass description => exact ⟨rfl, rfl⟩
  | insertClass description => cases keeps
  | setInventory classId value =>
      refine ⟨?_, rfl⟩
      change (db.classes.rows.map _).map _ = _
      rw [List.map_map]
      rfl
  | insertTag tag =>
      obtain ⟨_, _, sameGroups, sameClasses⟩ :=
        Db.tables_insertTag db server.encoding tag
      change
        (db.insertTag server.encoding tag).catalogue = _ ∧
          (db.insertTag server.encoding tag).groups.map _ = _
      rw [Db.catalogue, sameClasses, sameGroups]
      exact ⟨rfl, rfl⟩
  | insertGroup orderId kitId row => cases keeps
  | insertUser username password =>
      change
        (db.insertUser server username password).catalogue = _ ∧
          (db.insertUser server username password).groups.map _ = _
      simp only [Db.insertUser]
      split <;> exact ⟨rfl, rfl⟩
  | findUserByName username => exact ⟨rfl, rfl⟩
  | findUserByPassword password => exact ⟨rfl, rfl⟩
  | assignKit userId kitId => exact ⟨rfl, rfl⟩
  | listOrders => exact ⟨rfl, rfl⟩
  | listKits orderId => exact ⟨rfl, rfl⟩
  | shell command => exact ⟨rfl, rfl⟩

/-- The statement would insert a group. -/
def Db.Receives
    (db : Db) (encoding : Encoding) (orderId kitId : Option Int)
    (new : NewGroup) : Prop :=
  new.tag.all encoding.valid = true ∧
    ∃ row ∈ db.kits, orderId = some row.orderId ∧ kitId = some row.id

/-- A class that is inserted is missing, and the class of a group that is
inserted exists. -/
def Effect.Fits (server : Server) (db : Db) : Effect → Prop
  | .insertClass description => db.findClass description = none
  | .insertGroup orderId kitId new =>
      db.Receives server.encoding orderId kitId new →
        ∃ row ∈ db.classes.rows, row.id = new.classId
  | _ => True

theorem mem_groups_insertGroup
    {encoding : Encoding} {orderId kitId : Option Int} {new : NewGroup}
    {group : GroupRow}
    (member : group ∈ (db.insertGroup encoding orderId kitId new).groups) :
    group ∈ db.groups ∨
      (db.Receives encoding orderId kitId new ∧
        group.classId = new.classId) := by
  simp only [Db.insertGroup] at member
  cases orderId with
  | none => exact Or.inl member
  | some order =>
      cases kitId with
      | none => exact Or.inl member
      | some kit =>
          dsimp only at member
          split at member
          next valid =>
            rcases List.mem_append.mp member with old | inserted
            · exact Or.inl old
            · obtain ⟨row, rowMember, rfl⟩ := List.mem_map.mp inserted
              obtain ⟨known, isKit⟩ := List.mem_filter.mp rowMember
              simp only [decide_eq_true_eq] at isKit
              exact
                Or.inr
                  ⟨⟨valid, row, known, by rw [isKit.2], by rw [isKit.1]⟩, rfl⟩
          next => exact Or.inl member

theorem exists_of_receives
    {encoding : Encoding} {orderId kitId : Option Int} {new : NewGroup}
    (receives : db.Receives encoding orderId kitId new) :
    ∃ group ∈ (db.insertGroup encoding orderId kitId new).groups,
      group.classId = new.classId := by
  obtain ⟨valid, row, member, rfl, rfl⟩ := receives
  have selected :
      row ∈
        db.kits.filter
          (fun other => other.id = row.id ∧ other.orderId = row.orderId) :=
    List.mem_filter.mpr ⟨member, by simp⟩
  simp only [Db.insertGroup, valid, if_true]
  exact ⟨_, List.mem_append_right _ (List.mem_map_of_mem selected), rfl⟩

/-- A statement keeps the catalogue exactly if it fits. -/
theorem catalogued_perform_iff
    (server : Server) (catalogued : db.Catalogued) (effect : Effect) :
    (perform server effect db).2.Catalogued ↔ effect.Fits server db := by
  by_cases keeps : effect.catalogues = false
  · obtain ⟨sameCatalogue, sameGroups⟩ := catalogue_perform server keeps db
    apply iff_of_true (catalogued.congr sameCatalogue sameGroups)
    cases effect <;> trivial
  cases effect with
  | truncate =>
      apply iff_of_true _ trivial
      refine ⟨List.nodup_nil, ?_⟩
      intro group impossible
      cases impossible
  | insertClass description =>
      constructor
      · intro after
        have once := after.descriptions
        change (List.map _ (db.classes.rows ++ [_])).Nodup at once
        rw [List.map_append, List.nodup_append] at once
        have fresh :
            description ∉ db.classes.rows.map ClassRow.description :=
          fun old =>
            once.2.2 description old description (List.mem_singleton_self _)
              rfl
        cases found : db.findClass description with
        | none => exact found
        | some id =>
            obtain ⟨row, member, _, named⟩ := Db.findClass_eq_some found
            rw [← named] at fresh
            exact absurd (List.mem_map_of_mem member) fresh
      · intro missing
        refine
          ⟨Db.identifies_insertClass catalogued.descriptions server.defaults
              missing, ?_⟩
        intro group member
        obtain ⟨row, rowMember, found⟩ := catalogued.classes group member
        exact ⟨row, List.mem_append_left _ rowMember, found⟩
  | insertGroup orderId kitId new =>
      have sameClasses :
          (db.insertGroup server.encoding orderId kitId new).classes =
            db.classes := by
        simp only [Db.insertGroup]
        split
        · split <;> rfl
        · rfl
      constructor
      · intro after receives
        obtain ⟨group, member, isClass⟩ := exists_of_receives receives
        obtain ⟨row, rowMember, found⟩ := after.classes group member
        change
          row ∈
            (db.insertGroup server.encoding orderId kitId new).classes.rows
          at rowMember
        rw [sameClasses] at rowMember
        exact ⟨row, rowMember, found.trans isClass⟩
      · intro fits
        change (db.insertGroup server.encoding orderId kitId new).Catalogued
        refine ⟨?_, ?_⟩
        · rw [sameClasses]
          exact catalogued.descriptions
        · rw [sameClasses]
          intro group member
          rcases mem_groups_insertGroup member with old | ⟨receives, isClass⟩
          · exact catalogued.classes group old
          · rw [isClass]
            exact fits receives
  | _ => exact absurd rfl keeps

end

end LtlsKitting.Store
