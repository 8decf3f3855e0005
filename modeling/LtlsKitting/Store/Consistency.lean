import LtlsKitting.Relational.Numbered
import LtlsKitting.Store.Tags

/-!
# Consistency of the store

Kits are numbered within their order and groups within their kit, every group
names an existing class and, if it is tagged, an existing tag, and classes
have different descriptions.  For each statement the module states under which
condition it keeps the store consistent.
-/

namespace LtlsKitting.Store

open LtlsKitting.Php LtlsKitting.Relational

/-- Kits within their order. -/
def kitNumbering : Numbering OrderRow KitRow Int where
  key := OrderRow.id
  counter := OrderRow.kitCount
  parent := KitRow.orderId
  number := KitRow.id

/-- The kit of a group. -/
def GroupRow.kit (row : GroupRow) : Int × Int :=
  (row.orderId, row.kitId)

/-- Groups within their kit. -/
def groupNumbering : Numbering KitRow GroupRow (Int × Int) where
  key := KitRow.key
  counter := KitRow.groupCount
  parent := GroupRow.kit
  number := GroupRow.id

namespace Db

structure Consistent (db : Db) : Prop where
  kits : Numbered kitNumbering db.orders.rows db.kits
  groups : Numbered groupNumbering db.kits db.groups
  classes :
    ∀ group ∈ db.groups, ∃ row ∈ db.classes.rows, row.id = group.classId
  descriptions : Identifies ClassRow.description db.classes.rows
  tags :
    ∀ group ∈ db.groups, ∀ tag, group.tagId = some tag → tag ∈ db.tags

/-- The tags that the groups carry. -/
def groupTags (db : Db) : List Bytes :=
  db.groups.filterMap GroupRow.tagId

theorem consistent_empty (users : SerialTable UserRow.id) :
    Consistent { empty with users := users } where
  kits := Numbered.nil
  groups := Numbered.nil
  classes := by
    intro group member
    cases member
  descriptions := List.nodup_nil
  tags := by
    intro group member
    cases member

section

variable {db : Db}

theorem Consistent.kitsIdentified (consistent : db.Consistent) :
    Identifies KitRow.key db.kits :=
  consistent.kits.identifies

/-- (order, kit, id) identifies at most one group. -/
theorem Consistent.groupsIdentified (consistent : db.Consistent) :
    db.GroupsIdentified := by
  have pairs := consistent.groups.identifies
  simp only [GroupsIdentified, Identifies]
  have keys :
      db.groups.map GroupRow.key =
        (db.groups.map (fun row => (row.kit, row.id))).map
          (fun pair => (⟨pair.1.1, pair.1.2, pair.2⟩ : GroupKey)) := by
    rw [List.map_map]
    rfl
  rw [keys]
  apply List.Nodup.map _ pairs
  intro first second same
  obtain ⟨⟨firstOrder, firstKit⟩, firstId⟩ := first
  obtain ⟨⟨secondOrder, secondKit⟩, secondId⟩ := second
  simp only [GroupKey.mk.injEq] at same
  simp [same]

/-- A statement that keeps the numbers of the kits, the numbers and the
classes of the groups, and the descriptions keeps the store consistent, if
the tags that the groups carry exist. -/
theorem Consistent.of_columns
    (consistent : db.Consistent) {new : Db}
    (orders :
      new.orders.rows.map (fun row => (row.id, row.kitCount)) =
        db.orders.rows.map (fun row => (row.id, row.kitCount)))
    (kits :
      new.kits.map (fun row => (row.key, row.groupCount)) =
        db.kits.map (fun row => (row.key, row.groupCount)))
    (groups :
      new.groups.map (fun row => ((row.kit, row.id), row.classId)) =
        db.groups.map (fun row => ((row.kit, row.id), row.classId)))
    (classes :
      new.classes.rows.map (fun row => (row.id, row.description)) =
        db.classes.rows.map (fun row => (row.id, row.description)))
    (tags :
      ∀ group ∈ new.groups, ∀ tag, group.tagId = some tag → tag ∈ new.tags) :
    new.Consistent := by
  have groupClasses :
      new.groups.map GroupRow.classId = db.groups.map GroupRow.classId :=
    map_columns groups Prod.snd
  have classIds :
      new.classes.rows.map ClassRow.id = db.classes.rows.map ClassRow.id :=
    map_columns classes Prod.fst
  refine ⟨?_, ?_, ?_, ?_, tags⟩
  · exact consistent.kits.congr orders (map_columns kits Prod.fst)
  · exact consistent.groups.congr kits (map_columns groups Prod.fst)
  · intro group member
    have column : group.classId ∈ db.groups.map GroupRow.classId := by
      rw [← groupClasses]
      exact List.mem_map_of_mem member
    obtain ⟨old, oldMember, sameClass⟩ := List.mem_map.mp column
    obtain ⟨row, rowMember, found⟩ := consistent.classes old oldMember
    have idColumn : row.id ∈ new.classes.rows.map ClassRow.id := by
      rw [classIds]
      exact List.mem_map_of_mem rowMember
    obtain ⟨newRow, newMember, sameId⟩ := List.mem_map.mp idColumn
    exact ⟨newRow, newMember, by rw [sameId, found, sameClass]⟩
  · have descriptions :
        new.classes.rows.map ClassRow.description =
          db.classes.rows.map ClassRow.description :=
      map_columns classes Prod.snd
    simp only [Identifies]
    rw [descriptions]
    exact consistent.descriptions

/-! ## Statements of the synchronisation -/

theorem Consistent.takeStock
    (consistent : db.Consistent) (key : GroupKey) (value : Int) :
    (db.takeStock key value).Consistent := by
  refine consistent.of_columns rfl rfl rfl ?_ consistent.tags
  change (db.classes.rows.map (db.takeFrom key value)).map _ = _
  rw [List.map_map]
  apply List.map_congr_left
  intro row _
  unfold takeFrom
  cases found : db.takeSource key value row with
  | none => simp [found]
  | some group => simp [found]

theorem Consistent.setCount
    (consistent : db.Consistent) (key : GroupKey) (value : Int) :
    (db.setCount key value).Consistent := by
  refine
    consistent.of_columns rfl rfl (map_updateWhere (fun _ _ _ => rfl)) rfl ?_
  intro group member tag carried
  obtain ⟨source, sourceMember, rewritten⟩ := mem_updateWhere.mp member
  apply consistent.tags source sourceMember tag
  rw [← carried, ← rewritten]
  split <;> rfl

theorem Consistent.setTag
    (consistent : db.Consistent) (key : GroupKey) (tag : Option Bytes)
    (existing : ∀ value, tag = some value → value ∈ db.tags) :
    (db.setTag key tag).Consistent := by
  refine
    consistent.of_columns rfl rfl (map_updateWhere (fun _ _ _ => rfl)) rfl ?_
  intro group member carriedTag carried
  obtain ⟨source, sourceMember, ⟨_, _, rfl⟩ | ⟨_, rfl⟩⟩ := mem_setTag member
  · exact existing carriedTag carried
  · exact consistent.tags _ sourceMember carriedTag carried

theorem Consistent.setStatus
    (consistent : db.Consistent) (orderId kitId status : Int) :
    (db.setStatus orderId kitId status).Consistent :=
  consistent.of_columns rfl (map_updateWhere (fun _ _ _ => rfl)) rfl rfl
    consistent.tags

theorem Consistent.assignKit
    (consistent : db.Consistent) (userId kitId : Int) :
    (db.assignKit userId kitId).Consistent :=
  consistent.of_columns rfl (map_updateWhere (fun _ _ _ => rfl)) rfl rfl
    consistent.tags

/-! ## Statements of the script -/

theorem Consistent.setInventory
    (consistent : db.Consistent) (classId value : Int) :
    (db.setInventory classId value).Consistent := by
  refine consistent.of_columns rfl rfl rfl ?_ consistent.tags
  change (db.classes.rows.map _).map _ = _
  rw [List.map_map]
  rfl

theorem Consistent.insertUser
    (consistent : db.Consistent) (server : Server)
    (username : Bytes) (password : Option Bytes) :
    (db.insertUser server username password).Consistent := by
  simp only [Db.insertUser]
  split
  · exact consistent.of_columns rfl rfl rfl rfl consistent.tags
  · exact consistent

theorem Consistent.insertTag
    (consistent : db.Consistent) (encoding : Encoding) (tag : Bytes) :
    (db.insertTag encoding tag).Consistent := by
  simp only [Db.insertTag]
  split
  · refine consistent.of_columns rfl rfl rfl rfl ?_
    intro group member carriedTag carried
    exact
      List.mem_append_left _ (consistent.tags group member carriedTag carried)
  · exact consistent

theorem tables_insertTag (db : Db) (encoding : Encoding) (tag : Bytes) :
    (db.insertTag encoding tag).orders = db.orders ∧
      (db.insertTag encoding tag).kits = db.kits ∧
      (db.insertTag encoding tag).groups = db.groups ∧
      (db.insertTag encoding tag).classes = db.classes := by
  simp only [Db.insertTag]
  split <;> exact ⟨rfl, rfl, rfl, rfl⟩

/-- A tag that is inserted exists, and no other tag is new. -/
theorem mem_insertTag_iff
    (db : Db) {encoding : Encoding} {tag : Bytes}
    (valid : encoding.valid tag = true) (other : Bytes) :
    other ∈ (db.insertTag encoding tag).tags ↔
      other ∈ db.tags ∨ other = tag := by
  simp only [Db.insertTag]
  by_cases known : tag ∈ db.tags
  · simp only [valid, known, not_true, and_false, if_false]
    constructor
    · exact Or.inl
    · rintro (old | rfl)
      · exact old
      · exact known
  · simp [valid, known]

theorem nodup_insertTag
    {db : Db} (once : db.tags.Nodup) (encoding : Encoding) (tag : Bytes) :
    (db.insertTag encoding tag).tags.Nodup := by
  simp only [Db.insertTag]
  split
  next inserted =>
    change (db.tags ++ [tag]).Nodup
    rw [← List.concat_eq_append]
    exact once.concat inserted.2
  next => exact once

theorem Consistent.insertOrder (consistent : db.Consistent) :
    db.insertOrder.Consistent := by
  refine
    ⟨consistent.kits.insertParent rfl ?_, consistent.groups,
      consistent.classes, consistent.descriptions, consistent.tags⟩
  intro old member
  have below := db.orders.below old member
  exact ne_of_lt below

theorem findClass_eq_none {db : Db} {name : Bytes}
    (missing : db.findClass name = none) :
    name ∉ db.classes.rows.map ClassRow.description := by
  simp only [Db.findClass] at missing
  rw [Option.map_eq_none_iff, List.find?_eq_none] at missing
  rintro member
  obtain ⟨row, rowMember, rfl⟩ := List.mem_map.mp member
  exact missing row rowMember (by simp)

theorem findClass_eq_some {db : Db} {name : Bytes} {id : Int}
    (found : db.findClass name = some id) :
    ∃ row ∈ db.classes.rows, row.id = id ∧ row.description = name := by
  simp only [Db.findClass] at found
  obtain ⟨row, search, sameId⟩ := Option.map_eq_some_iff.mp found
  exact
    ⟨row, List.mem_of_find?_eq_some search, sameId, by
      simpa using List.find?_some search⟩

/-- Descriptions stay different if a class is created only if it is missing. -/
theorem identifies_insertClass
    (descriptions : Identifies ClassRow.description db.classes.rows)
    (defaults : Defaults) {name : Bytes}
    (missing : db.findClass name = none) :
    Identifies ClassRow.description
      (db.insertClass defaults name).classes.rows := by
  change (List.map _ (db.classes.rows ++ [_])).Nodup
  rw [List.map_append, List.map_singleton, ← List.concat_eq_append]
  exact List.Nodup.concat (findClass_eq_none missing) descriptions

theorem Consistent.insertClass
    (consistent : db.Consistent) (defaults : Defaults) {description : Bytes}
    (missing : db.findClass description = none) :
    (db.insertClass defaults description).Consistent := by
  refine
    ⟨consistent.kits, consistent.groups, ?_,
      identifies_insertClass consistent.descriptions defaults missing,
      consistent.tags⟩
  intro group member
  obtain ⟨row, rowMember, found⟩ := consistent.classes group member
  exact ⟨row, List.mem_append_left _ rowMember, found⟩

/-- The inserted kit is the next one of its order and has no groups. -/
theorem numbered_insertKit
    (kits : Numbered kitNumbering db.orders.rows db.kits)
    (groups : Numbered groupNumbering db.kits db.groups)
    (status orderId : Int) :
    Numbered kitNumbering (db.insertKit status orderId).orders.rows
        (db.insertKit status orderId).kits ∧
      Numbered groupNumbering (db.insertKit status orderId).kits
        (db.insertKit status orderId).groups := by
  cases found : db.orders.lookup orderId with
  | none =>
      have nowhere : ∀ row ∈ db.orders.rows, row.id ≠ orderId := by
        intro row member same
        rw [← same, SerialTable.lookup_eq_some member] at found
        cases found
      have sameKits : (db.insertKit status orderId).kits = db.kits := by
        simp [Db.insertKit, found]
      rw [sameKits]
      refine ⟨kits.congr ?_ rfl, groups⟩
      change (db.orders.rows.map _).map _ = _
      rw [List.map_map]
      apply List.map_congr_left
      intro row member
      simp [nowhere row member]
  | some order =>
      obtain ⟨member, sameId⟩ := SerialTable.mem_of_lookup found
      have newKits :
          (db.insertKit status orderId).kits =
            db.kits ++
              [{ orderId := orderId
                 id := order.kitCount
                 groupCount := 0
                 status := status
                 userId := none }] := by
        simp [Db.insertKit, found]
      rw [newKits]
      constructor
      · apply kits.insertChild db.orders.identifies member
        · exact sameId.symm
        · rfl
        · intro other
          rfl
        · intro other
          change (if other.id = orderId then _ else _) = _
          rw [← sameId]
          rfl
      · apply groups.insertParent
        · rfl
        · intro old oldMember same
          have sameOrder : old.orderId = orderId := congrArg Prod.fst same
          have sameNumber : old.id = order.kitCount := congrArg Prod.snd same
          have number :
              old.id ∈ kitNumbering.numbers db.kits order.id := by
            apply List.mem_map_of_mem
            apply List.mem_filter.mpr
            refine ⟨oldMember, ?_⟩
            simpa [kitNumbering, sameId] using sameOrder
          have bounds := ((kits.counted order member).mem_iff _).mp number
          have tooLarge : old.id < order.kitCount := bounds.2
          omega

theorem Consistent.insertKit
    (consistent : db.Consistent) (status orderId : Int) :
    (db.insertKit status orderId).Consistent := by
  obtain ⟨kits, groups⟩ :=
    numbered_insertKit consistent.kits consistent.groups status orderId
  exact
    ⟨kits, groups, consistent.classes, consistent.descriptions,
      consistent.tags⟩

/-- The kits after one of them received a group. -/
def raiseGroupCount (db : Db) (order kit : Int) : List KitRow :=
  updateWhere (fun row => row.id = kit ∧ row.orderId = order)
    (fun row => { row with groupCount := row.groupCount + 1 }) db.kits

/-- The row of a new group. -/
def newGroupRow (order : Int) (kit : KitRow) (new : NewGroup) : GroupRow where
  orderId := order
  kitId := kit.id
  id := kit.groupCount
  count := new.count
  target := new.target
  classId := new.classId
  tagId := new.tag
  archived := new.archived

/-- If the kit exists and the tag is valid, one group is inserted. -/
theorem insertGroup_of_mem
    (identified : Identifies KitRow.key db.kits) {encoding : Encoding}
    {new : NewGroup} (valid : new.tag.all encoding.valid = true)
    {row : KitRow} (member : row ∈ db.kits) :
    db.insertGroup encoding (some row.orderId) (some row.id) new =
      { db with
        kits := db.raiseGroupCount row.orderId row.id
        groups := db.groups ++ [newGroupRow row.orderId row new] } := by
  have selected :
      db.kits.filter
          (fun other => other.id = row.id ∧ other.orderId = row.orderId) =
        [row] := by
    rw [← identified.filter_eq member]
    apply List.filter_congr
    intro other _
    simp [KitRow.key, and_comm]
  simp only [Db.insertGroup, valid, if_true, selected]
  rfl

/-- An insertion without a kit, or of an invalid tag, changes nothing. -/
theorem insertGroup_cases
    (db : Db) (encoding : Encoding) (orderId kitId : Option Int) (new : NewGroup) :
    db.insertGroup encoding orderId kitId new = db ∨
      ∃ row ∈ db.kits,
        orderId = some row.orderId ∧ kitId = some row.id ∧
          new.tag.all encoding.valid = true := by
  cases orderId with
  | none =>
      exact Or.inl rfl
  | some order =>
      cases kitId with
      | none =>
          exact Or.inl rfl
      | some kit =>
          by_cases valid : new.tag.all encoding.valid = true
          · by_cases present :
                ∃ row ∈ db.kits, row.id = kit ∧ row.orderId = order
            · obtain ⟨row, member, rfl, rfl⟩ := present
              exact Or.inr ⟨row, member, rfl, rfl, valid⟩
            · left
              have nowhere :
                  ∀ row ∈ db.kits,
                    ¬ (row.id = kit ∧ row.orderId = order) :=
                fun row member same => present ⟨row, member, same⟩
              have empty :
                  db.kits.filter
                      (fun row => row.id = kit ∧ row.orderId = order) =
                    [] := by
                rw [List.filter_eq_nil_iff]
                intro row member
                simpa using nowhere row member
              simp only [Db.insertGroup, valid, if_true, empty,
                updateWhere_eq_self nowhere, List.map_nil, List.append_nil]
          · left
            simp only [Db.insertGroup, valid]
            rfl

/-- The inserted group is the next one of its kit. -/
theorem numbered_insertGroup
    (kits : Numbered kitNumbering db.orders.rows db.kits)
    (groups : Numbered groupNumbering db.kits db.groups)
    (encoding : Encoding) (orderId kitId : Option Int) (new : NewGroup) :
    Numbered kitNumbering
        (db.insertGroup encoding orderId kitId new).orders.rows
        (db.insertGroup encoding orderId kitId new).kits ∧
      Numbered groupNumbering
        (db.insertGroup encoding orderId kitId new).kits
        (db.insertGroup encoding orderId kitId new).groups := by
  rcases insertGroup_cases db encoding orderId kitId new with
    unchanged | ⟨row, member, rfl, rfl, valid⟩
  · rw [unchanged]
    exact ⟨kits, groups⟩
  have identified : Identifies KitRow.key db.kits := kits.identifies
  rw [insertGroup_of_mem identified valid member]
  refine ⟨kits.congr rfl (map_updateWhere (fun _ _ _ => rfl)), ?_⟩
  apply groups.insertChild identified member
  · rfl
  · rfl
  · intro other
    split <;> rfl
  · intro other
    by_cases same : other.id = row.id ∧ other.orderId = row.orderId
    · simp [same, groupNumbering, KitRow.key]
    · have different : KitRow.key other ≠ KitRow.key row := by
        intro sameKey
        exact same ⟨congrArg Prod.snd sameKey, congrArg Prod.fst sameKey⟩
      simp [same, groupNumbering, different]

theorem Consistent.insertGroup
    (consistent : db.Consistent) (encoding : Encoding)
    (orderId kitId : Option Int) (new : NewGroup)
    (known : ∃ row ∈ db.classes.rows, row.id = new.classId)
    (tagged :
      ∀ tag, new.tag = some tag → encoding.valid tag = true →
        tag ∈ db.tags) :
    (db.insertGroup encoding orderId kitId new).Consistent := by
  obtain ⟨kits, groups⟩ :=
    numbered_insertGroup consistent.kits consistent.groups encoding orderId
      kitId new
  rcases insertGroup_cases db encoding orderId kitId new with
    unchanged | ⟨row, member, rfl, rfl, valid⟩
  · rw [unchanged]
    exact consistent
  rw [insertGroup_of_mem consistent.kitsIdentified valid member] at kits groups ⊢
  refine ⟨kits, groups, ?_, consistent.descriptions, ?_⟩
  · intro group groupMember
    rcases List.mem_append.mp groupMember with old | inserted
    · exact consistent.classes group old
    · rw [List.mem_singleton.mp inserted]
      exact known
  · intro group groupMember tag carried
    rcases List.mem_append.mp groupMember with old | inserted
    · exact consistent.tags group old tag carried
    · rw [List.mem_singleton.mp inserted] at carried
      have sameTag : new.tag = some tag := carried
      rw [sameTag] at valid
      exact tagged tag sameTag valid

end

end Db

end LtlsKitting.Store
