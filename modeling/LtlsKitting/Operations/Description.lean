import LtlsKitting.Operations.Loading

/-!
# Descriptions of a warehouse

A warehouse is described by its inventory, its tags, and its orders, each a
list of kits, each a list of items.  `render` writes a description as a
script, and `Represents` says that a store holds exactly what is described:
orders are numbered from one, kits and groups from zero.
-/

namespace LtlsKitting.Operations

open LtlsKitting.Php LtlsKitting.Store LtlsKitting.Interaction
open LtlsKitting.Relational

structure Item where
  target : Int
  count : Int
  tag : Option Bytes
  archived : Bool
  name : Bytes
  deriving DecidableEq

structure Warehouse where
  inventory : List (Bytes × Int)
  tags : List Bytes
  orders : List (List (List Item))

/-- All items of all kits. -/
def Warehouse.items (warehouse : Warehouse) : List Item :=
  warehouse.orders.flatten.flatten

/-- The names that are listed or used. -/
def Warehouse.names (warehouse : Warehouse) : List Bytes :=
  warehouse.inventory.map Prod.fst ++ warehouse.items.map Item.name

/-- The tags that are listed or used. -/
def Warehouse.allTags (warehouse : Warehouse) : List Bytes :=
  warehouse.tags ++ warehouse.items.filterMap Item.tag

/-- Letters, digits and spaces. -/
def IsName (text : Bytes) : Prop :=
  ∀ byte ∈ text, isAlnum byte = true ∨ byte = 32

instance decidableIsName (text : Bytes) : Decidable (IsName text) :=
  List.decidableBAll _ text

/-- At least one letter or digit, and nothing else. -/
structure IsTag (text : Bytes) : Prop where
  nonempty : text ≠ []
  alnum : ∀ byte ∈ text, isAlnum byte = true

instance decidableIsTag (text : Bytes) : Decidable (IsTag text) :=
  decidable_of_iff (text ≠ [] ∧ text.all isAlnum = true)
    ⟨fun ⟨nonempty, alnum⟩ => ⟨nonempty, List.all_eq_true.mp alnum⟩,
      fun isTag => ⟨isTag.nonempty, List.all_eq_true.mpr isTag.alnum⟩⟩

/-- A warehouse that can be written as a script: the inventory lists a name
once, and names and tags consist of the allowed characters. -/
structure Description extends Warehouse where
  listedOnce : (inventory.map Prod.fst).Nodup
  names : ∀ name ∈ toWarehouse.names, IsName name
  tagNames : ∀ tag ∈ toWarehouse.allTags, IsTag tag

/-- The integers that the server can represent. -/
def Representable (value : Int) : Prop :=
  minInt ≤ value ∧ value ≤ maxInt

/-- All numbers of the description can be represented. -/
structure Warehouse.InRange (warehouse : Warehouse) : Prop where
  quantities : ∀ entry ∈ warehouse.inventory, Representable entry.2
  targets : ∀ item ∈ warehouse.items, Representable item.target
  counts : ∀ item ∈ warehouse.items, Representable item.count

/-! ## The script of a description -/

def inventoryLine (entry : Bytes × Int) : Bytes :=
  implode 44 [entry.1, decimal entry.2]

def itemLine (item : Item) : Bytes :=
  implode 44
    [decimal item.target, decimal item.count, item.tag.getD [],
      if item.archived then bytes "t" else bytes "f", item.name]

def kitLines (items : List Item) : List Bytes :=
  bytes "[KIT]" :: bytes "[ITEMS]" :: items.map itemLine

def orderLines (kits : List (List Item)) : List Bytes :=
  bytes "[ORDER]" :: kits.flatMap kitLines

def Warehouse.lines (warehouse : Warehouse) : List Bytes :=
  bytes "[INVENTORY]" :: warehouse.inventory.map inventoryLine ++
    bytes "[TAGS]" :: warehouse.tags ++
    warehouse.orders.flatMap orderLines

/-- The text of the script, with every line terminated by CR LF. -/
def Warehouse.render (warehouse : Warehouse) : Bytes :=
  warehouse.lines.flatMap (fun line => line ++ [13, 10])

/-! ## The store of a description -/

/-- The rows of the orders. -/
def orderRows (orders : List (List (List Item))) : List OrderRow :=
  orders.mapIdx (fun index kits =>
    { id := index + 1, kitCount := kits.length })

/-- What a description says of a kit: its order, its number and the number of
its groups. -/
structure KitView where
  orderId : Int
  id : Int
  groupCount : Int
  deriving DecidableEq

def kitView (row : KitRow) : KitView :=
  ⟨row.orderId, row.id, row.groupCount⟩

def kitViewsOf (orderId : Int) (kits : List (List Item)) : List KitView :=
  kits.mapIdx (fun index items => ⟨orderId, index, items.length⟩)

def kitViews (orders : List (List (List Item))) : List KitView :=
  (orders.mapIdx (fun index kits => kitViewsOf (index + 1) kits)).flatten

/-- What a description says of a group; the class is given by its name. -/
structure GroupView where
  key : GroupKey
  target : Int
  count : Int
  tag : Option Bytes
  archived : Bool
  name : Option Bytes
  deriving DecidableEq

def groupView (db : Db) (row : GroupRow) : GroupView where
  key := row.key
  target := row.target
  count := row.count
  tag := row.tagId
  archived := row.archived
  name := (db.classes.lookup row.classId).map ClassRow.description

def itemView (orderId kitId id : Int) (item : Item) : GroupView where
  key := ⟨orderId, kitId, id⟩
  target := item.target
  count := item.count
  tag := item.tag
  archived := item.archived
  name := some item.name

def kitGroupViews (orderId kitId : Int) (items : List Item) :
    List GroupView :=
  items.mapIdx (fun index item => itemView orderId kitId index item)

def orderGroupViews (orderId : Int) (kits : List (List Item)) :
    List GroupView :=
  (kits.mapIdx (fun index items => kitGroupViews orderId index items)).flatten

def groupViews (orders : List (List (List Item))) : List GroupView :=
  (orders.mapIdx
    (fun index kits => orderGroupViews (index + 1) kits)).flatten

/-- The store holds exactly what is described. -/
structure Represents (db : Db) (warehouse : Warehouse) : Prop where
  orders : db.orders.rows = orderRows warehouse.orders
  kits : db.kits.map kitView = kitViews warehouse.orders
  groups : db.groups.map (groupView db) = groupViews warehouse.orders
  descriptions : Identifies ClassRow.description db.classes.rows
  names :
    ∀ name,
      name ∈ db.classes.rows.map ClassRow.description ↔
        name ∈ warehouse.names
  inventories :
    ∀ entry ∈ warehouse.inventory, ∃ row ∈ db.classes.rows,
      row.description = entry.1 ∧ row.inventory = entry.2
  tagsOnce : db.tags.Nodup
  tags : ∀ tag, tag ∈ db.tags ↔ tag ∈ warehouse.allTags

/-! ## Growing lists -/

theorem orderRows_append
    (orders : List (List (List Item))) (kits : List (List Item)) :
    orderRows (orders ++ [kits]) =
      orderRows orders ++ [⟨orders.length + 1, kits.length⟩] := by
  simp [orderRows, List.mapIdx_append]

theorem kitViewsOf_append
    (orderId : Int) (kits : List (List Item)) (items : List Item) :
    kitViewsOf orderId (kits ++ [items]) =
      kitViewsOf orderId kits ++ [⟨orderId, kits.length, items.length⟩] := by
  simp [kitViewsOf, List.mapIdx_append]

theorem kitViews_append
    (orders : List (List (List Item))) (kits : List (List Item)) :
    kitViews (orders ++ [kits]) =
      kitViews orders ++ kitViewsOf (orders.length + 1) kits := by
  simp [kitViews, List.mapIdx_append]

theorem kitGroupViews_append
    (orderId kitId : Int) (items : List Item) (item : Item) :
    kitGroupViews orderId kitId (items ++ [item]) =
      kitGroupViews orderId kitId items ++
        [itemView orderId kitId items.length item] := by
  simp [kitGroupViews, List.mapIdx_append]

theorem orderGroupViews_append
    (orderId : Int) (kits : List (List Item)) (items : List Item) :
    orderGroupViews orderId (kits ++ [items]) =
      orderGroupViews orderId kits ++
        kitGroupViews orderId kits.length items := by
  simp [orderGroupViews, List.mapIdx_append]

theorem groupViews_append
    (orders : List (List (List Item))) (kits : List (List Item)) :
    groupViews (orders ++ [kits]) =
      groupViews orders ++ orderGroupViews (orders.length + 1) kits := by
  simp [groupViews, List.mapIdx_append]

end LtlsKitting.Operations
