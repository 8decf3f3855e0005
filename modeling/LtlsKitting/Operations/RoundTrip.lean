import LtlsKitting.Operations.Rendering
import Mathlib.Data.List.TakeWhile

/-!
# Loading the script of a description

The store after each line of a rendered script represents what has been
written so far.  A description grows at its end: the inventory, the tags, the
list of orders, the kits of the last order, and the items of its last kit.
-/

namespace LtlsKitting.Operations

open LtlsKitting.Php LtlsKitting.Store LtlsKitting.Interaction
open LtlsKitting.Relational

/-! ## Tags -/

/-- Letters and digits are valid in every encoding. -/
theorem IsTag.valid {text : Bytes} (tag : IsTag text)
    (encoding : Encoding) : encoding.valid text = true := by
  have alnum := tag.alnum
  clear tag
  induction text with
  | nil =>
      exact encoding.valid_nil
  | cons byte rest inductionHypothesis =>
      have bounds : 0 < byte ∧ byte < 128 := by
        have first := alnum byte (List.mem_cons_self ..)
        simp only [isAlnum, Bool.or_eq_true, Bool.and_eq_true,
          decide_eq_true_eq, UInt8.le_iff_toNat_le] at first
        rw [UInt8.lt_iff_toNat_lt, UInt8.lt_iff_toNat_lt]
        simp only [UInt8.reduceToNat] at first ⊢
        omega
      have later :=
        inductionHypothesis
          (fun other member => alnum other (List.mem_cons_of_mem _ member))
      have split := encoding.valid_split [] rest byte bounds.1 bounds.2
      rw [List.nil_append] at split
      rw [split, encoding.valid_nil, later]
      rfl

theorem IsTag.pgvalue_eq {text : Bytes} (tag : IsTag text) :
    pgvalue text = text := by
  rw [pgvalue_eq_iff]
  intro member
  exact absurd (tag.alnum 0 member) (by decide)

/-! ## Growing representations -/

section

variable {server : Server} {db : Db}
variable {inventory : List (Bytes × Int)} {tags : List Bytes}
variable {orders : List (List (List Item))} {kits : List (List Item)}
variable {items : List Item}

/-- Groups whose classes are found look the same if the classes keep their
descriptions. -/
theorem groupViews_congr
    {before after : Db} {views : List GroupView}
    (named : ∀ view ∈ views, view.name ≠ none)
    (represented : before.groups.map (groupView before) = views)
    (kept :
      ∀ classId row, before.classes.lookup classId = some row →
        (after.classes.lookup classId).map ClassRow.description =
          some row.description) :
    before.groups.map (groupView after) = views := by
  rw [← represented]
  apply List.map_congr_left
  intro row member
  have found : (groupView before row).name ≠ none := by
    apply named
    rw [← represented]
    exact List.mem_map_of_mem member
  cases search : before.classes.lookup row.classId with
  | none =>
      simp [groupView, search] at found
  | some classRow =>
      have same := kept row.classId classRow search
      simp [groupView, search, same]

theorem groupViews_named (orders : List (List (List Item))) :
    ∀ view ∈ groupViews orders, view.name ≠ none := by
  intro view member
  simp only [groupViews, orderGroupViews, kitGroupViews, List.mem_flatten,
    List.mem_mapIdx] at member
  obtain ⟨_, ⟨_, _, rfl⟩, inOrder⟩ := member
  obtain ⟨_, inKits, inKit⟩ := List.mem_flatten.mp inOrder
  obtain ⟨_, _, rfl⟩ := List.mem_mapIdx.mp inKits
  obtain ⟨_, _, rfl⟩ := List.mem_mapIdx.mp inKit
  simp [itemView]

/-- The first steps: an empty store represents an empty description. -/
theorem represents_truncate (db : Db) :
    Represents db.truncate ⟨[], [], []⟩ where
  orders := rfl
  kits := rfl
  groups := rfl
  descriptions := List.nodup_nil
  names := fun _ => Iff.rfl
  inventories := by
    intro entry member
    cases member
  tagsOnce := List.nodup_nil
  tags := fun _ => Iff.rfl

theorem Represents.insertTag
    (represents : Represents db ⟨inventory, tags, orders⟩)
    {tag : Bytes} (isTag : IsTag tag) (encoding : Encoding) :
    Represents (db.insertTag encoding tag)
      ⟨inventory, tags ++ [tag], orders⟩ := by
  obtain ⟨sameOrders, sameKits, sameGroups, sameClasses⟩ :=
    db.tables_insertTag encoding tag
  have views : groupView (db.insertTag encoding tag) = groupView db := by
    funext row
    simp [groupView, sameClasses]
  constructor
  · rw [sameOrders]
    exact represents.orders
  · rw [sameKits]
    exact represents.kits
  · rw [sameGroups, views]
    exact represents.groups
  · rw [sameClasses]
    exact represents.descriptions
  · rw [sameClasses]
    exact represents.names
  · rw [sameClasses]
    exact represents.inventories
  · exact Db.nodup_insertTag represents.tagsOnce encoding tag
  · intro other
    rw [Db.mem_insertTag_iff db (isTag.valid encoding), represents.tags]
    simp only [Warehouse.allTags, Warehouse.items, List.mem_append,
      List.mem_singleton]
    tauto

theorem description_setInventory
    (db : Db) (classId value other : Int) :
    ((db.setInventory classId value).classes.lookup other).map
        ClassRow.description =
      (db.classes.lookup other).map ClassRow.description := by
  unfold Db.setInventory
  dsimp only
  rw [SerialTable.lookup_update, Option.map_map]
  rfl

theorem descriptions_setInventory (db : Db) (classId value : Int) :
    (db.setInventory classId value).classes.rows.map ClassRow.description =
      db.classes.rows.map ClassRow.description := by
  simp [Db.setInventory, Function.comp_def]

theorem mem_setInventory
    {db : Db} {row : ClassRow} (member : row ∈ db.classes.rows)
    (classId value : Int) :
    { row with
      inventory := if row.id = classId then value else row.inventory } ∈
      (db.setInventory classId value).classes.rows :=
  List.mem_map_of_mem member

/-- The inventory of a listed class is set, and the others are kept. -/
theorem inventories_setInventory
    {after : Db} {name : Bytes} {id : Int}
    (ensured : ClassEnsured db after name id)
    (inventories :
      ∀ entry ∈ inventory,
        ∃ row ∈ db.classes.rows,
          row.description = entry.1 ∧ row.inventory = entry.2)
    (fresh : name ∉ inventory.map Prod.fst) (value : Int) :
    ∀ entry ∈ inventory ++ [(name, value)],
      ∃ row ∈ (after.setInventory id value).classes.rows,
        row.description = entry.1 ∧ row.inventory = entry.2 := by
  obtain ⟨listed, listedMember, listedId, listedName⟩ := ensured.resolved
  intro entry member
  rcases List.mem_append.mp member with old | new
  · obtain ⟨row, rowMember, sameName, sameQuantity⟩ := inventories entry old
    have kept := ensured.kept row rowMember
    have different : row.id ≠ id := by
      intro sameId
      have sameRow : row = listed :=
        after.classes.identifies.eq_of_key_eq kept listedMember
          (sameId.trans listedId.symm)
      apply fresh
      rw [← listedName, ← sameRow, sameName]
      exact List.mem_map_of_mem old
    refine ⟨_, mem_setInventory kept id value, sameName, ?_⟩
    simpa [different] using sameQuantity
  · rw [List.mem_singleton.mp new]
    refine ⟨_, mem_setInventory listedMember id value, listedName, ?_⟩
    simp [listedId]

theorem leadingName_of_isName {text : Bytes} (isName : IsName text) :
    leadingName text = text := by
  rw [leadingName, List.takeWhile_eq_self_iff]
  intro byte member
  rcases isName byte member with alnum | rfl
  · rw [alnum]
    rfl
  · decide

theorem intval_return {value : Int} (representable : Representable value) :
    intval (decimal value ++ [13]) = value := by
  apply intval_decimal_append representable.1 representable.2
  intro byte first
  rw [← Option.some.inj first]
  decide

theorem intval_decimal {value : Int} (representable : Representable value) :
    intval (decimal value) = value := by
  have read :=
    @intval_decimal_append value representable.1 representable.2 [] (by
      intro byte first
      cases first)
  rwa [List.append_nil] at read

theorem Represents.loadInventory
    (represents : Represents db ⟨inventory, tags, orders⟩)
    {entry : Bytes × Int} (isName : IsName entry.1)
    (fresh : entry.1 ∉ inventory.map Prod.fst)
    (representable : Representable entry.2) :
    Represents
      (loadInventory server db ⟨entry.1, decimal entry.2 ++ [13]⟩)
      ⟨inventory ++ [entry], tags, orders⟩ := by
  have ensured := classEnsured server db entry.1
  have classed :=
    (descriptions_ensureClass server represents.descriptions entry.1)
  unfold Operations.loadInventory
  dsimp only
  rw [leadingName_of_isName isName, intval_return representable]
  constructor
  · exact (congrArg SerialTable.rows ensured.orders).trans represents.orders
  · exact (congrArg (List.map kitView) ensured.kits).trans represents.kits
  · change
      (ensureClass server db entry.1).groups.map (groupView _) = _
    rw [ensured.groups]
    apply groupViews_congr (groupViews_named orders) represents.groups
    intro classId row found
    rw [description_setInventory, ensured.lookup found]
    rfl
  · simp only [Identifies]
    rw [descriptions_setInventory]
    exact classed
  · intro name
    rw [descriptions_setInventory, ensured.names, represents.names]
    simp only [Warehouse.names, Warehouse.items, List.map_append,
      List.mem_append, List.map_cons, List.map_nil, List.mem_singleton]
    tauto
  · exact
      inventories_setInventory ensured represents.inventories fresh entry.2
  · exact tags_ensureClass server db entry.1 ▸ represents.tagsOnce
  · intro tag
    have sameTags :
        ((ensureClass server db entry.1).setInventory
          (resolveClass db entry.1) entry.2).tags = db.tags :=
      tags_ensureClass server db entry.1
    rw [sameTags]
    exact represents.tags tag

theorem mem_orderRows {orders : List (List (List Item))} {row : OrderRow}
    (member : row ∈ orderRows orders) : row.id ≤ orders.length := by
  obtain ⟨index, small, rfl⟩ := List.mem_mapIdx.mp member
  change (index : Int) + 1 ≤ orders.length
  omega

theorem mem_kitViews {orders : List (List (List Item))} {view : KitView}
    (member : view ∈ kitViews orders) : view.orderId ≤ orders.length := by
  obtain ⟨views, inOrders, inViews⟩ := List.mem_flatten.mp member
  obtain ⟨index, small, rfl⟩ := List.mem_mapIdx.mp inOrders
  obtain ⟨kitIndex, _, rfl⟩ := List.mem_mapIdx.mp inViews
  change (index : Int) + 1 ≤ orders.length
  omega

theorem mem_kitViewsOf {orderId : Int} {kits : List (List Item)}
    {view : KitView} (member : view ∈ kitViewsOf orderId kits) :
    view.id < kits.length := by
  obtain ⟨index, small, rfl⟩ := List.mem_mapIdx.mp member
  change (index : Int) < kits.length
  omega

theorem Represents.insertOrder
    (represents : Represents db ⟨inventory, tags, orders⟩)
    (next : db.orders.nextKey = orders.length + 1) :
    Represents db.insertOrder ⟨inventory, tags, orders ++ [[]]⟩ where
  orders := by
    rw [orderRows_append, ← represents.orders, ← next]
    rfl
  kits := by
    rw [kitViews_append]
    exact represents.kits.trans (List.append_nil _).symm
  groups := by
    rw [groupViews_append]
    exact represents.groups.trans (List.append_nil _).symm
  descriptions := represents.descriptions
  names := by
    intro name
    refine (represents.names name).trans ?_
    simp [Warehouse.names, Warehouse.items]
  inventories := represents.inventories
  tagsOnce := represents.tagsOnce
  tags := by
    intro tag
    refine (represents.tags tag).trans ?_
    simp [Warehouse.allTags, Warehouse.items]

theorem Represents.insertKit
    (represents : Represents db ⟨inventory, tags, orders ++ [kits]⟩)
    (status : Int) :
    Represents (db.insertKit status (orders.length + 1))
      ⟨inventory, tags, orders ++ [kits ++ [[]]]⟩ := by
  have rows :
      db.orders.rows =
        orderRows orders ++ [⟨orders.length + 1, kits.length⟩] :=
    represents.orders.trans (orderRows_append orders kits)
  have current :
      (⟨orders.length + 1, kits.length⟩ : OrderRow) ∈ db.orders.rows := by
    rw [rows]
    exact List.mem_append_right _ (List.mem_singleton_self _)
  have found :
      db.orders.lookup (orders.length + 1) =
        some ⟨orders.length + 1, kits.length⟩ :=
    SerialTable.lookup_eq_some current
  constructor
  · change db.orders.rows.map _ = _
    rw [rows, orderRows_append, List.map_append]
    congr 1
    · conv_rhs => rw [← List.map_id (orderRows orders)]
      apply List.map_congr_left
      intro row member
      have small := mem_orderRows member
      have different : row.id ≠ orders.length + 1 := by omega
      simp [different]
    · simp
  · have newKits :
        (db.insertKit status (orders.length + 1)).kits =
          db.kits ++
            [{ orderId := orders.length + 1
               id := kits.length
               groupCount := 0
               status := status
               userId := none }] := by
      simp [Db.insertKit, found]
    rw [newKits, List.map_append, represents.kits, kitViews_append,
      kitViews_append, kitViewsOf_append, List.append_assoc]
    rfl
  · rw [groupViews_append, orderGroupViews_append]
    refine Eq.trans ?_
      (represents.groups.trans (groupViews_append orders kits))
      |>.trans ?_
    · rfl
    · simp [kitGroupViews]
  · exact represents.descriptions
  · intro name
    refine (represents.names name).trans ?_
    simp [Warehouse.names, Warehouse.items]
  · exact represents.inventories
  · exact represents.tagsOnce
  · intro tag
    refine (represents.tags tag).trans ?_
    simp [Warehouse.allTags, Warehouse.items]

/-- The views of the kits after one of them received a group. -/
def raiseView (orderId kitId : Int) (view : KitView) : KitView :=
  if view.id = kitId ∧ view.orderId = orderId then
    { view with groupCount := view.groupCount + 1 }
  else
    view

theorem kitViews_raise
    (orders : List (List (List Item))) (kits : List (List Item))
    (items : List Item) (item : Item) :
    (kitViews (orders ++ [kits ++ [items]])).map
        (raiseView (orders.length + 1) kits.length) =
      kitViews (orders ++ [kits ++ [items ++ [item]]]) := by
  simp only [kitViews_append, kitViewsOf_append, List.map_append]
  congr 1
  · conv_rhs => rw [← List.map_id (kitViews orders)]
    apply List.map_congr_left
    intro view member
    have small := mem_kitViews member
    have different : ¬ view.orderId = orders.length + 1 := by omega
    simp [raiseView, different]
  · congr 1
    · conv_rhs => rw [← List.map_id (kitViewsOf _ kits)]
      apply List.map_congr_left
      intro view member
      have small := mem_kitViewsOf member
      have different : ¬ view.id = kits.length := by omega
      simp [raiseView, different]
    · simp [raiseView]

theorem kitView_raiseGroupCount (db : Db) (orderId kitId : Int) :
    (db.raiseGroupCount orderId kitId).map kitView =
      (db.kits.map kitView).map (raiseView orderId kitId) := by
  simp only [Db.raiseGroupCount, updateWhere]
  rw [List.map_map, List.map_map]
  apply List.map_congr_left
  intro row _
  by_cases selected : row.id = kitId ∧ row.orderId = orderId
  · simp [raiseView, kitView, selected]
  · simp [raiseView, kitView, selected]

theorem archived_field (item : Item) :
    (!(archivedField item == bytes "f" || archivedField item == [])) =
      item.archived := by
  simp only [archivedField]
  cases item.archived with
  | true => decide
  | false => decide

theorem optionalTag_field {item : Item}
    (isTag : ∀ text, item.tag = some text → IsTag text) :
    optionalTag (item.tag.getD []) = item.tag := by
  simp only [optionalTag]
  cases given : item.tag with
  | none => rfl
  | some text =>
      simp [(isTag text given).nonempty, (isTag text given).pgvalue_eq]

/-- The fields that a rendered item is read as. -/
def renderedFields (item : Item) : ItemFields where
  target := decimal item.target
  count := decimal item.count
  tag := item.tag.getD []
  archived := archivedField item
  className := item.name

/-- What is known of the store in which the class and the tag of an item
exist. -/
structure ItemPrepared (before after : Db) (item : Item) : Prop where
  ensured :
    ClassEnsured before after item.name (resolveClass before item.name)
  descriptions : Identifies ClassRow.description after.classes.rows
  tagsOnce : after.tags.Nodup
  tags :
    ∀ other, other ∈ after.tags ↔ other ∈ before.tags ∨ item.tag = some other

theorem itemPrepared
    (server : Server) {warehouse : Warehouse}
    (represents : Represents db warehouse) {item : Item}
    (isTag : ∀ text, item.tag = some text → IsTag text) :
    ItemPrepared db
      (ensureItemTag server (ensureClass server db item.name)
        (item.tag.getD []))
      item := by
  have ensured := classEnsured server db item.name
  have classed :=
    descriptions_ensureClass server represents.descriptions item.name
  have once : (ensureClass server db item.name).tags.Nodup := by
    rw [tags_ensureClass]
    exact represents.tagsOnce
  obtain ⟨sameOrders, sameKits, sameGroups, sameClasses⟩ :=
    tables_ensureItemTag server (ensureClass server db item.name)
      (item.tag.getD [])
  constructor
  · exact
      { orders := sameOrders.trans ensured.orders
        kits := sameKits.trans ensured.kits
        groups := sameGroups.trans ensured.groups
        kept := by
          rw [sameClasses]
          exact ensured.kept
        resolved := by
          rw [sameClasses]
          exact ensured.resolved
        names := by
          rw [sameClasses]
          exact ensured.names }
  · rw [sameClasses]
    exact classed
  · simp only [ensureItemTag]
    split
    · exact once
    · exact Db.nodup_insertTag once server.encoding _
  · intro other
    simp only [ensureItemTag]
    cases given : item.tag with
    | none =>
        simp [tags_ensureClass]
    | some text =>
        have tag := isTag text given
        simp only [Option.getD_some, tag.nonempty, if_false, tag.pgvalue_eq]
        rw [Db.mem_insertTag_iff _ (tag.valid server.encoding),
          tags_ensureClass, Option.some.injEq]
        exact or_congr_right eq_comm

/-- The kit of the next item is the last one. -/
theorem Represents.lastKit
    (represents :
      Represents db ⟨inventory, tags, orders ++ [kits ++ [items]]⟩) :
    ∃ row ∈ db.kits,
      row.orderId = orders.length + 1 ∧ row.id = kits.length ∧
        row.groupCount = items.length := by
  have last :
      (⟨orders.length + 1, kits.length, items.length⟩ : KitView) ∈
        db.kits.map kitView := by
    rw [represents.kits, kitViews_append, kitViewsOf_append]
    simp
  obtain ⟨row, member, view⟩ := List.mem_map.mp last
  exact
    ⟨row, member, congrArg KitView.orderId view, congrArg KitView.id view,
      congrArg KitView.groupCount view⟩

/-- The group that an item describes. -/
def newGroup (db : Db) (item : Item) : NewGroup where
  count := item.count
  target := item.target
  classId := resolveClass db item.name
  tag := item.tag
  archived := item.archived

theorem itemGroup_renderedFields
    {item : Item} (isName : IsName item.name)
    (isTag : ∀ text, item.tag = some text → IsTag text)
    (targetFits : Representable item.target)
    (countFits : Representable item.count) :
    itemGroup db (renderedFields item) = newGroup db item := by
  simp only [itemGroup, newGroup, renderedFields, intval_decimal targetFits,
    intval_decimal countFits, leadingName_of_isName isName,
    optionalTag_field isTag, archived_field]

theorem items_append
    (inventory : List (Bytes × Int)) (tags : List Bytes)
    (orders : List (List (List Item))) (kits : List (List Item))
    (items : List Item) (item : Item) :
    Warehouse.items
        ⟨inventory, tags, orders ++ [kits ++ [items ++ [item]]]⟩ =
      Warehouse.items ⟨inventory, tags, orders ++ [kits ++ [items]]⟩ ++
        [item] := by
  simp [Warehouse.items]

/-- Inserting the group of the next item. -/
theorem Represents.insertGroup
    (represents :
      Represents db ⟨inventory, tags, orders ++ [kits ++ [items]]⟩)
    {middle : Db} {item : Item} (prepared : ItemPrepared db middle item)
    {row : KitRow} (sameOrder : row.orderId = orders.length + 1)
    (sameKit : row.id = kits.length)
    (number : row.groupCount = items.length) :
    Represents
      { middle with
        kits := middle.raiseGroupCount row.orderId row.id
        groups :=
          middle.groups ++
            [Db.newGroupRow row.orderId row (newGroup db item)] }
      ⟨inventory, tags, orders ++ [kits ++ [items ++ [item]]]⟩ := by
  have ensured := prepared.ensured
  obtain ⟨classRow, classMember, classId, className⟩ := ensured.resolved
  constructor
  · refine (congrArg SerialTable.rows ensured.orders).trans ?_
    rw [represents.orders, orderRows_append, orderRows_append]
    simp
  · change (middle.raiseGroupCount row.orderId row.id).map kitView = _
    rw [kitView_raiseGroupCount, ensured.kits, represents.kits, sameOrder,
      sameKit]
    exact kitViews_raise orders kits items item
  · change
      (middle.groups ++ [_]).map (groupView middle) = _
    rw [List.map_append, ensured.groups]
    have old :
        db.groups.map (groupView middle) =
          groupViews (orders ++ [kits ++ [items]]) := by
      apply groupViews_congr (groupViews_named _) represents.groups
      intro other found search
      rw [ensured.lookup search]
      rfl
    have lookup := SerialTable.lookup_eq_some classMember
    rw [old]
    simp only [groupViews_append, orderGroupViews_append,
      kitGroupViews_append, List.append_assoc]
    congr 3
    simp [groupView, itemView, Db.newGroupRow, newGroup, GroupRow.key,
      sameOrder, sameKit, number, ← classId, lookup, className]
  · exact prepared.descriptions
  · intro name
    refine (ensured.names name).trans ?_
    rw [represents.names]
    simp only [Warehouse.names, items_append, List.map_append, List.map_cons,
      List.map_nil, List.mem_append, List.mem_singleton, or_assoc]
  · intro entry listed
    obtain ⟨found, member, same⟩ := represents.inventories entry listed
    exact ⟨found, ensured.kept found member, same⟩
  · exact prepared.tagsOnce
  · intro tag
    refine (prepared.tags tag).trans ?_
    rw [represents.tags]
    simp only [Warehouse.allTags, items_append, List.filterMap_append,
      List.mem_append, List.mem_filterMap, List.mem_singleton,
      exists_eq_left, or_assoc]

theorem Represents.loadItem
    (represents :
      Represents db ⟨inventory, tags, orders ++ [kits ++ [items]]⟩)
    (consistent : db.Consistent) {item : Item} (isName : IsName item.name)
    (isTag : ∀ text, item.tag = some text → IsTag text)
    (targetFits : Representable item.target)
    (countFits : Representable item.count) :
    Represents
      (loadItem server db (some (orders.length + 1)) (some kits.length)
        (renderedFields item))
      ⟨inventory, tags, orders ++ [kits ++ [items ++ [item]]]⟩ := by
  have prepared := itemPrepared server represents isTag
  obtain ⟨row, member, sameOrder, sameKit, number⟩ := represents.lastKit
  have valid : (newGroup db item).tag.all server.encoding.valid = true := by
    change item.tag.all server.encoding.valid = true
    cases given : item.tag with
    | none => rfl
    | some text => exact (isTag text given).valid server.encoding
  simp only [Operations.loadItem]
  rw [itemGroup_renderedFields isName isTag targetFits countFits,
    ← sameOrder, ← sameKit]
  change
    Represents
      (Db.insertGroup
        (ensureItemTag server
          (ensureClass server db (leadingName item.name)) (item.tag.getD []))
        _ _ _ _)
      _
  rw [leadingName_of_isName isName]
  rw [← prepared.ensured.kits] at member
  have identified := consistent.kitsIdentified
  rw [← prepared.ensured.kits] at identified
  rw [Db.insertGroup_of_mem identified valid member]
  exact represents.insertGroup prepared sameOrder sameKit number

end

/-! ## Runs over the lines -/

/-- The store represents what was written, and the next order is the next
one of the description. -/
structure Stored (db : Db) (warehouse : Warehouse) : Prop where
  represents : Represents db warehouse
  next : db.orders.nextKey = warehouse.orders.length + 1
  consistent : db.Consistent

/-- An item that can be written and read back. -/
structure Item.Writable (item : Item) : Prop where
  isName : IsName item.name
  isTag : ∀ text, item.tag = some text → IsTag text
  targetFits : Representable item.target
  countFits : Representable item.count

section

variable {server : Server} {current : LoopState × Db}
variable {inventory : List (Bytes × Int)} {tags : List Bytes}
variable {orders : List (List (List Item))} {kits : List (List Item)}
variable {items : List Item}

theorem lineStep_header {line name : Bytes} {mode : Mode}
    (ordinary : isComment line = false) (header : isHeader line = true)
    (matched : sectionHeader line = some name)
    (known : searchMode name = some mode) :
    lineStep server current line =
      (headerState current.2 current.1 (some mode),
        headerStore server current.2 current.1.orderId (some mode)) := by
  simp [lineStep, lineState, lineStore, ordinary, header, matched, known]

theorem lineStep_content {line : Bytes}
    (ordinary : isComment line = false ∧ isHeader line = false) :
    lineStep server current line =
      (current.1, contentStore server current.2 current.1 line) := by
  simp [lineStep, lineState, lineStore, ordinary.1, ordinary.2]

theorem inventoryLine_content {entry : Bytes × Int} (isName : IsName entry.1) :
    isComment (inventoryLine entry ++ [13]) = false ∧
      isHeader (inventoryLine entry ++ [13]) = false := by
  obtain ⟨name, quantity⟩ := entry
  cases name with
  | nil =>
      exact content_of_head ⟨by decide, by decide⟩
  | cons byte rest =>
      have plain := isName.plain byte (List.mem_cons_self ..)
      exact content_of_head ⟨plain.2.1, plain.2.2.2⟩

theorem decimal_ne_nil (value : Int) : decimal value ≠ [] := by
  have digits := decimalDigits_ne_nil value.natAbs
  simp [decimal, digits]

theorem itemLine_content (item : Item) :
    isComment (itemLine item ++ [13]) = false ∧
      isHeader (itemLine item ++ [13]) = false := by
  simp only [itemLine, implode]
  rw [List.intercalate_cons_of_ne_nil (by simp), List.append_assoc,
    List.append_assoc]
  exact (decimal_plain item.target).content (decimal_ne_nil item.target)

/-- A line that represents more keeps the store consistent. -/
theorem Stored.grow
    {before after : Warehouse} (stored : Stored current.2 before)
    {line : Bytes}
    (represents : Represents (lineStep server current line).2 after)
    (next :
      (lineStep server current line).2.orders.nextKey =
        after.orders.length + 1) :
    Stored (lineStep server current line).2 after :=
  ⟨represents, next, consistent_lineStore stored.consistent current.1 line⟩

/-- One line of the inventory. -/
theorem stored_inventoryLine
    (stored : Stored current.2 ⟨inventory, tags, orders⟩)
    (mode : current.1.mode = some .inventory)
    {entry : Bytes × Int} (isName : IsName entry.1)
    (fresh : entry.1 ∉ inventory.map Prod.fst)
    (representable : Representable entry.2) :
    (lineStep server current (inventoryLine entry ++ [13])).1 = current.1 ∧
      Stored (lineStep server current (inventoryLine entry ++ [13])).2
        ⟨inventory ++ [entry], tags, orders⟩ := by
  have line :
      lineStep server current (inventoryLine entry ++ [13]) =
        (current.1,
          loadInventory server current.2
            ⟨entry.1, decimal entry.2 ++ [13]⟩) := by
    rw [lineStep_content (inventoryLine_content isName)]
    simp only [contentStore, mode, inventoryFields_line isName]
  refine ⟨by rw [line], stored.grow ?_ ?_⟩
  · rw [line]
    exact stored.represents.loadInventory isName fresh representable
  · rw [line]
    refine Eq.trans ?_ stored.next
    exact
      congrArg SerialTable.nextKey
        (classEnsured server current.2 (leadingName entry.1)).orders

theorem stored_inventoryLines
    {entries : List (Bytes × Int)}
    (stored : Stored current.2 ⟨[], tags, orders⟩)
    (mode : current.1.mode = some .inventory)
    (isName : ∀ entry ∈ entries, IsName entry.1)
    (once : (entries.map Prod.fst).Nodup)
    (representable : ∀ entry ∈ entries, Representable entry.2) :
    Stored
      (runActions (lineStep server) current
        (entries.map (fun entry => inventoryLine entry ++ [13]))).2
      ⟨entries, tags, orders⟩ := by
  refine
    (runActions_items
      (fun listed (next : LoopState × Db) =>
        next.1.mode = some .inventory ∧
          Stored next.2 ⟨listed, tags, orders⟩)
      ?_ ⟨mode, stored⟩).2
  rintro listed entry rest rfl next ⟨nextMode, nextStored⟩
  have fresh : entry.1 ∉ listed.map Prod.fst := by
    intro known
    rw [List.map_append, List.nodup_append] at once
    exact once.2.2 entry.1 known entry.1 (by simp) rfl
  obtain ⟨sameState, grown⟩ :=
    stored_inventoryLine nextStored nextMode (isName entry (by simp)) fresh
      (representable entry (by simp))
  exact ⟨sameState ▸ nextMode, grown⟩

/-- One line of the tags. -/
theorem stored_tagLine
    (stored : Stored current.2 ⟨inventory, tags, orders⟩)
    (mode : current.1.mode = some .tags)
    {tag : Bytes} (isTag : IsTag tag) :
    (lineStep server current (tag ++ [13])).1 = current.1 ∧
      Stored (lineStep server current (tag ++ [13])).2
        ⟨inventory, tags ++ [tag], orders⟩ := by
  have line :
      lineStep server current (tag ++ [13]) =
        (current.1, current.2.insertTag server.encoding tag) := by
    rw [lineStep_content (isTag.plain.content isTag.nonempty)]
    simp only [contentStore, mode, withoutLastByte, List.dropLast_concat,
      isTag.pgvalue_eq]
  refine ⟨by rw [line], stored.grow ?_ ?_⟩
  · rw [line]
    exact stored.represents.insertTag isTag server.encoding
  · rw [line]
    refine Eq.trans ?_ stored.next
    exact
      congrArg SerialTable.nextKey
        (current.2.tables_insertTag server.encoding tag).1

theorem stored_tagLines
    {more : List Bytes}
    (stored : Stored current.2 ⟨inventory, [], orders⟩)
    (mode : current.1.mode = some .tags)
    (isTag : ∀ tag ∈ more, IsTag tag) :
    Stored
      (runActions (lineStep server) current
        (more.map (fun tag => tag ++ [13]))).2
      ⟨inventory, more, orders⟩ := by
  refine
    (runActions_items
      (fun listed (next : LoopState × Db) =>
        next.1.mode = some .tags ∧ Stored next.2 ⟨inventory, listed, orders⟩)
      ?_ ⟨mode, stored⟩).2
  rintro listed tag rest rfl next ⟨nextMode, nextStored⟩
  obtain ⟨sameState, grown⟩ :=
    stored_tagLine nextStored nextMode (isTag tag (by simp))
  exact ⟨sameState ▸ nextMode, grown⟩

theorem orders_loadItem
    (server : Server) (db : Db) (orderId kitId : Option Int)
    (fields : ItemFields) :
    (loadItem server db orderId kitId fields).orders = db.orders := by
  have inserted :
      ∀ before : Db,
        (before.insertGroup server.encoding orderId kitId
          (itemGroup db fields)).orders = before.orders := by
    intro before
    simp only [Db.insertGroup]
    split
    · split <;> rfl
    · rfl
  simp only [Operations.loadItem]
  rw [inserted, (tables_ensureItemTag server _ fields.tag).1]
  exact (classEnsured server db _).orders

/-- One item of the last kit. -/
theorem stored_itemLine
    (stored :
      Stored current.2 ⟨inventory, tags, orders ++ [kits ++ [items]]⟩)
    (mode : current.1.mode = some .items)
    (order : current.1.orderId = some (orders.length + 1 : Int))
    (kit : current.1.kitId = some (kits.length : Int))
    {item : Item} (writable : item.Writable) :
    (lineStep server current (itemLine item ++ [13])).1 = current.1 ∧
      Stored (lineStep server current (itemLine item ++ [13])).2
        ⟨inventory, tags, orders ++ [kits ++ [items ++ [item]]]⟩ := by
  have line :
      lineStep server current (itemLine item ++ [13]) =
        (current.1,
          loadItem server current.2 (some (orders.length + 1 : Int))
            (some (kits.length : Int)) (renderedFields item)) := by
    rw [lineStep_content (itemLine_content item)]
    simp only [contentStore, mode, order, kit,
      itemFields_line writable.isName writable.isTag]
    rfl
  refine ⟨by rw [line], stored.grow ?_ ?_⟩
  · rw [line]
    exact
      stored.represents.loadItem stored.consistent writable.isName
        writable.isTag writable.targetFits writable.countFits
  · rw [line, orders_loadItem]
    refine stored.next.trans ?_
    simp

theorem stored_itemLines
    {more : List Item}
    (stored :
      Stored current.2 ⟨inventory, tags, orders ++ [kits ++ [[]]]⟩)
    (mode : current.1.mode = some .items)
    (order : current.1.orderId = some (orders.length + 1 : Int))
    (kit : current.1.kitId = some (kits.length : Int))
    (writable : ∀ item ∈ more, item.Writable) :
    (runActions (lineStep server) current
        (more.map (fun item => itemLine item ++ [13]))).1 = current.1 ∧
      Stored
        (runActions (lineStep server) current
          (more.map (fun item => itemLine item ++ [13]))).2
        ⟨inventory, tags, orders ++ [kits ++ [more]]⟩ := by
  refine
    runActions_items
      (fun written (next : LoopState × Db) =>
        next.1 = current.1 ∧
          Stored next.2 ⟨inventory, tags, orders ++ [kits ++ [written]]⟩)
      ?_ ⟨rfl, stored⟩
  rintro written item rest rfl next ⟨sameState, nextStored⟩
  rw [← sameState] at mode order kit
  obtain ⟨kept, grown⟩ :=
    stored_itemLine nextStored mode order kit (writable item (by simp))
  exact ⟨kept.trans sameState, grown⟩

/-- The headers of a kit. -/
theorem stored_kitHeaders
    (stored : Stored current.2 ⟨inventory, tags, orders ++ [kits]⟩)
    (order : current.1.orderId = some (orders.length + 1 : Int)) :
    ∃ next : LoopState × Db,
      runActions (lineStep server) current
          [bytes "[KIT]" ++ [13], bytes "[ITEMS]" ++ [13]] = next ∧
        next.1.mode = some .items ∧
        next.1.orderId = some (orders.length + 1 : Int) ∧
        next.1.kitId = some (kits.length : Int) ∧
        Stored next.2 ⟨inventory, tags, orders ++ [kits ++ [[]]]⟩ := by
  have rows := stored.represents.orders.trans (orderRows_append orders kits)
  have found :
      current.2.orders.lookup (orders.length + 1) =
        some ⟨orders.length + 1, kits.length⟩ := by
    have current :
        (⟨orders.length + 1, kits.length⟩ : OrderRow) ∈
          current.2.orders.rows := by
      rw [rows]
      exact List.mem_append_right _ (List.mem_singleton_self _)
    exact SerialTable.lookup_eq_some current
  have kitHeader :
      lineStep server current (bytes "[KIT]" ++ [13]) =
        ({ current.1 with
            mode := some .kit
            kitId := some (kits.length : Int) },
          current.2.insertKit server.defaults.status
            (orders.length + 1)) := by
    rw [@lineStep_header server current _ (bytes "KIT") .kit (by decide)
      (by decide) (by decide) (by decide)]
    simp [headerState, headerStore, modeIs, order, found]
  have itemsHeader :
      ∀ between : LoopState × Db,
        lineStep server between (bytes "[ITEMS]" ++ [13]) =
          ({ between.1 with mode := some .items }, between.2) := by
    intro between
    rw [@lineStep_header server between _ (bytes "ITEMS") .items (by decide)
      (by decide) (by decide) (by decide)]
    simp [headerState, headerStore, modeIs]
  have inserted :
      Stored (lineStep server current (bytes "[KIT]" ++ [13])).2
        ⟨inventory, tags, orders ++ [kits ++ [[]]]⟩ := by
    apply stored.grow
    · rw [kitHeader]
      exact stored.represents.insertKit server.defaults.status
    · rw [kitHeader]
      refine stored.next.trans ?_
      simp
  refine ⟨_, rfl, ?_⟩
  rw [runActions_cons, runActions_cons, runActions_nil, itemsHeader]
  refine ⟨rfl, ?_, ?_, inserted⟩
  · rw [kitHeader]
    exact order
  · rw [kitHeader]

/-- One kit of the last order. -/
theorem stored_kit
    (stored : Stored current.2 ⟨inventory, tags, orders ++ [kits]⟩)
    (order : current.1.orderId = some (orders.length + 1 : Int))
    (writable : ∀ item ∈ items, item.Writable) :
    (runActions (lineStep server) current
        ((kitLines items).map (fun line => line ++ [13]))).1.orderId =
        some (orders.length + 1 : Int) ∧
      Stored
        (runActions (lineStep server) current
          ((kitLines items).map (fun line => line ++ [13]))).2
        ⟨inventory, tags, orders ++ [kits ++ [items]]⟩ := by
  obtain ⟨next, headers, mode, nextOrder, nextKit, nextStored⟩ :=
    @stored_kitHeaders server current inventory tags orders kits stored order
  obtain ⟨sameState, grown⟩ :=
    @stored_itemLines server next inventory tags orders kits items nextStored
      mode nextOrder nextKit writable
  have lines :
      (kitLines items).map (fun line => line ++ [13]) =
        [bytes "[KIT]" ++ [13], bytes "[ITEMS]" ++ [13]] ++
          items.map (fun item => itemLine item ++ [13]) := by
    simp [kitLines]
  rw [lines, runActions_append, headers]
  exact ⟨(congrArg LoopState.orderId sameState).trans nextOrder, grown⟩

theorem stored_kitLines
    {more : List (List Item)}
    (stored : Stored current.2 ⟨inventory, tags, orders ++ [[]]⟩)
    (order : current.1.orderId = some (orders.length + 1 : Int))
    (writable : ∀ items ∈ more, ∀ item ∈ items, item.Writable) :
    Stored
      (runActions (lineStep server) current
        ((more.flatMap kitLines).map (fun line => line ++ [13]))).2
      ⟨inventory, tags, orders ++ [more]⟩ := by
  rw [List.map_flatMap]
  refine
    (runActions_blocks
      (fun written (next : LoopState × Db) =>
        next.1.orderId = some (orders.length + 1 : Int) ∧
          Stored next.2 ⟨inventory, tags, orders ++ [written]⟩)
      ?_ ⟨order, stored⟩).2
  rintro written items rest rfl next ⟨nextOrder, nextStored⟩
  exact stored_kit nextStored nextOrder (writable items (by simp))

/-- One order. -/
theorem stored_order
    (stored : Stored current.2 ⟨inventory, tags, orders⟩)
    (writable : ∀ items ∈ kits, ∀ item ∈ items, item.Writable) :
    Stored
      (runActions (lineStep server) current
        ((orderLines kits).map (fun line => line ++ [13]))).2
      ⟨inventory, tags, orders ++ [kits]⟩ := by
  have header :
      lineStep server current (bytes "[ORDER]" ++ [13]) =
        (headerState current.2 current.1 (some .order),
          current.2.insertOrder) := by
    rw [@lineStep_header server current _ (bytes "ORDER") .order
      (by decide) (by decide) (by decide) (by decide)]
    simp [headerStore, modeIs]
  have opened :
      Stored (lineStep server current (bytes "[ORDER]" ++ [13])).2
        ⟨inventory, tags, orders ++ [[]]⟩ := by
    apply stored.grow
    · rw [header]
      exact stored.represents.insertOrder stored.next
    · rw [header]
      change current.2.orders.nextKey + 1 = _
      rw [stored.next]
      simp
  have order :
      (lineStep server current (bytes "[ORDER]" ++ [13])).1.orderId =
        some (orders.length + 1 : Int) := by
    rw [header]
    simp [headerState, modeIs, LoopState.say, stored.next]
  rw [orderLines, List.map_cons, runActions_cons]
  exact stored_kitLines opened order writable

theorem stored_orderLines
    {more : List (List (List Item))}
    (stored : Stored current.2 ⟨inventory, tags, []⟩)
    (writable :
      ∀ kits ∈ more, ∀ items ∈ kits, ∀ item ∈ items, item.Writable) :
    Stored
      (runActions (lineStep server) current
        ((more.flatMap orderLines).map (fun line => line ++ [13]))).2
      ⟨inventory, tags, more⟩ := by
  rw [List.map_flatMap]
  refine
    runActions_blocks
      (fun written (next : LoopState × Db) =>
        Stored next.2 ⟨inventory, tags, written⟩)
      ?_ stored
  rintro written kits rest rfl next nextStored
  exact stored_order nextStored (writable kits (by simp))

/-- A header that only selects the mode. -/
theorem stored_modeHeader
    {line name : Bytes} {mode : Mode}
    (stored : Stored current.2 ⟨inventory, tags, orders⟩)
    (ordinary : isComment line = false) (header : isHeader line = true)
    (matched : sectionHeader line = some name)
    (known : searchMode name = some mode)
    (notOrder : mode ≠ .order) (notKit : mode ≠ .kit) :
    (lineStep server current line).1.mode = some mode ∧
      Stored (lineStep server current line).2 ⟨inventory, tags, orders⟩ := by
  rw [lineStep_header ordinary header matched known]
  simp [headerState, headerStore, modeIs, notOrder, notKit, stored]

end

/-- Loading the script of a description yields exactly what is described,
whatever the database held before. -/
theorem initScript_represents
    (server : Server) (db : Db) (messages : List Message)
    (description : Description) (inRange : description.InRange) :
    Represents
      ((initScript messages (.text description.render)).exec
        (perform server) db)
      description.toWarehouse := by
  have start :
      Stored (LoopState.start messages, db.truncate).2 ⟨[], [], []⟩ :=
    ⟨represents_truncate db, rfl, Db.consistent_empty db.users⟩
  have inventoryHeader :=
    @stored_modeHeader server _ [] [] [] (bytes "[INVENTORY]" ++ [13])
      (bytes "INVENTORY") .inventory start (by decide) (by decide)
      (by decide) (by decide) (by decide) (by decide)
  have inventoryPart :=
    @stored_inventoryLines server _ [] [] description.inventory
      inventoryHeader.2 inventoryHeader.1
      (fun entry member => description.entryName member)
      description.listedOnce inRange.quantities
  have tagsHeader :=
    @stored_modeHeader server _ _ [] [] (bytes "[TAGS]" ++ [13])
      (bytes "TAGS") .tags inventoryPart (by decide) (by decide)
      (by decide) (by decide) (by decide) (by decide)
  have tagsPart :=
    @stored_tagLines server _ _ [] description.tags tagsHeader.2
      tagsHeader.1 (fun tag member => description.listedTag member)
  have writable :
      ∀ kits ∈ description.orders, ∀ items ∈ kits, ∀ item ∈ items,
        item.Writable := by
    intro kits order items kit item member
    have used : item ∈ description.items :=
      List.mem_flatten.mpr
        ⟨items, List.mem_flatten.mpr ⟨kits, order, kit⟩, member⟩
    exact
      ⟨description.itemName used, description.itemTag used,
        inRange.targets item used, inRange.counts item used⟩
  have ordersPart :=
    @stored_orderLines server _ _ _ description.orders tagsPart writable
  have lines :
      description.lines.map (fun line => line ++ [13]) ++ [[]] =
        (bytes "[INVENTORY]" ++ [13]) ::
          (description.inventory.map
              (fun entry => inventoryLine entry ++ [13]) ++
            (bytes "[TAGS]" ++ [13]) ::
              (description.tags.map (fun tag => tag ++ [13]) ++
                ((description.orders.flatMap orderLines).map
                    (fun line => line ++ [13]) ++
                  [[]]))) := by
    simp [Warehouse.lines]
  rw [exec_initScript, description.codeLines_render, lines, runActions_cons,
    runActions_append, runActions_cons, runActions_append,
    runActions_append]
  exact ordersPart.represents

/-- Two orders; the first has a kit with two items and an empty kit. -/
def smallDescription : Description where
  inventory := [(bytes "bolt M6", 12), (bytes "", -3)]
  tags := [bytes "t1"]
  orders :=
    [[[⟨5, 0, none, false, bytes "bolt M6"⟩,
        ⟨2, 2, some (bytes "t2"), true, bytes "nut"⟩], []], []]
  listedOnce := by decide
  names := by decide
  tagNames := by decide

theorem initScript_represents_small :
    Represents
      ((initScript [] (.text smallDescription.render)).exec
        (perform Server.plain) Db.bolts)
      smallDescription.toWarehouse :=
  initScript_represents Server.plain Db.bolts [] smallDescription
    { quantities := by
        simp only [Representable]
        decide
      targets := by
        simp only [Representable]
        decide
      counts := by
        simp only [Representable]
        decide }

/-- A quantity that the server cannot represent. -/
def hugeDescription : Description where
  inventory := [(bytes "bolt", 2 ^ 63)]
  tags := []
  orders := []
  listedOnce := by decide
  names := by decide
  tagNames := by decide

/-- The quantity is read as the largest integer. -/
theorem initScript_saturates :
    ¬ Represents
        ((initScript [] (.text hugeDescription.render)).exec
          (perform Server.plain) Db.bolts)
        hugeDescription.toWarehouse := by
  intro represents
  obtain ⟨row, member, _, quantity⟩ :=
    represents.inventories (bytes "bolt", 2 ^ 63)
      (List.mem_singleton_self _)
  have loaded :
      ∀ row ∈
          ((initScript [] (.text hugeDescription.render)).exec
            (perform Server.plain) Db.bolts).classes.rows,
        row.inventory = 2 ^ 63 - 1 := by
    decide
  rw [loaded row member] at quantity
  revert quantity
  decide

end LtlsKitting.Operations
