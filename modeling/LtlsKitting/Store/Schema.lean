import LtlsKitting.Php.Values
import LtlsKitting.Relational.SerialTable

/-!
# The tables of the store

The rows of the six tables and the store that holds them.  Integer columns
are unbounded.  The table definitions are not part of the sources, so the
column defaults and the text encoding are parameters of the database server;
the serial keys of classes, orders and users are carried by `SerialTable`.
The key (order, kit, id) of a group is not assumed to be unique.
-/

namespace LtlsKitting.Store

open LtlsKitting.Php LtlsKitting.Relational

structure ClassRow where
  id : Int
  description : Bytes
  pn : Option Bytes
  sn : Option Bytes
  weight : Option Bytes
  location : Option Bytes
  inventory : Int
  deriving DecidableEq, Repr

structure OrderRow where
  id : Int
  kitCount : Int
  deriving DecidableEq, Repr

structure KitRow where
  orderId : Int
  id : Int
  groupCount : Int
  status : Int
  userId : Option Int
  deriving DecidableEq, Repr

/-- The address (order, kit, id) of a group. -/
structure GroupKey where
  orderId : Int
  kitId : Int
  id : Int
  deriving DecidableEq, Repr

structure GroupRow where
  orderId : Int
  kitId : Int
  id : Int
  count : Int
  target : Int
  classId : Int
  tagId : Option Bytes
  archived : Bool
  deriving DecidableEq, Repr

/-- A user; the password column holds a digest and may be null. -/
structure UserRow where
  id : Int
  username : Bytes
  password : Option Bytes
  deriving DecidableEq, Repr

def GroupRow.key (row : GroupRow) : GroupKey :=
  ⟨row.orderId, row.kitId, row.id⟩

def KitRow.key (row : KitRow) : Int × Int :=
  (row.orderId, row.id)

/-- The text encoding of the database.  An ASCII byte never occurs inside a
longer character, so a text is valid exactly when the pieces between its ASCII
bytes are.  No text has a zero byte. -/
structure Encoding where
  valid : Bytes → Bool
  valid_nil : valid [] = true
  valid_split :
    ∀ (left right : Bytes) (separator : UInt8),
      0 < separator → separator < 128 →
        valid (left ++ separator :: right) = (valid left && valid right)
  valid_nonzero : ∀ text, valid text = true → 0 ∉ text

/-- A text of the database is the text of its literal. -/
theorem Encoding.pgvalue_eq {encoding : Encoding} {text : Bytes}
    (valid : encoding.valid text = true) : pgvalue text = text :=
  (pgvalue_eq_iff text).mpr (encoding.valid_nonzero text valid)

/-- The defaults of the columns that an insertion leaves out. -/
structure Defaults where
  pn : Option Bytes
  sn : Option Bytes
  weight : Option Bytes
  location : Option Bytes
  inventory : Int
  status : Int

/-- The database server: its encoding, its functions `md5` and `upper`, and
the defaults of the schema. -/
structure Server where
  encoding : Encoding
  md5 : Bytes → Bytes
  upper : Bytes → Bytes
  defaults : Defaults

/-- The contents of the database. -/
structure Db where
  classes : SerialTable ClassRow.id
  tags : List Bytes
  orders : SerialTable OrderRow.id
  kits : List KitRow
  groups : List GroupRow
  users : SerialTable UserRow.id

namespace Db

/-- The store before any script was loaded. -/
def empty : Db where
  classes := SerialTable.empty
  tags := []
  orders := SerialTable.empty
  kits := []
  groups := []
  users := SerialTable.empty

/-- (order, kit, id) identifies at most one group. -/
def GroupsIdentified (db : Db) : Prop :=
  Identifies GroupRow.key db.groups

/-- The inventory of a class. -/
def inventory (db : Db) (classId : Int) : Int :=
  columnSum (fun row => if row.id = classId then row.inventory else 0)
    db.classes.rows

/-- The items of a class that the groups of all orders and kits hold. -/
def withdrawn (db : Db) (classId : Int) : Int :=
  columnSum (fun row => if row.classId = classId then row.count else 0)
    db.groups

/-- No class has a negative inventory. -/
def NonnegInventories (db : Db) : Prop :=
  ∀ row ∈ db.classes.rows, 0 ≤ row.inventory

/-- No two different groups carry the same tag. -/
def TagsDistinct (db : Db) : Prop :=
  (db.groups.filterMap GroupRow.tagId).Nodup

/-- The sum that represents an inventory has at most one summand. -/
theorem inventory_eq {db : Db} {row : ClassRow}
    (member : row ∈ db.classes.rows) :
    db.inventory row.id = row.inventory := by
  simp only [inventory]
  rw [columnSum_eq_of_identifies db.classes.identifies member]
  · simp
  · intro other _ different
    simp [different]

end Db

end LtlsKitting.Store
