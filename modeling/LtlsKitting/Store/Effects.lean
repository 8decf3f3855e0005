import LtlsKitting.Interaction.Program
import LtlsKitting.Store.Schema
import Mathlib.Data.List.Sort

/-!
# The effects of the server

Every SQL statement the server sends and every external command it starts is
a constructor of `Effect`; `Answer` is what the server reads from the result,
and `perform` is the meaning of one effect, executed atomically.  A statement
that the database refuses (a text that is not valid in its encoding, a missing
number that makes the statement malformed) changes nothing.
-/

namespace LtlsKitting.Store

open LtlsKitting.Php LtlsKitting.Relational LtlsKitting.Interaction

/-- The columns of a group that an ITEMS line gives. -/
structure NewGroup where
  count : Int
  target : Int
  classId : Int
  tag : Option Bytes
  archived : Bool
  deriving DecidableEq, Repr

/-- One row of the response of a kit synchronisation. -/
structure Goal where
  id : Int
  description : Option Bytes
  pn : Option Bytes
  sn : Option Bytes
  weight : Option Bytes
  location : Option Bytes
  count : Int
  target : Int
  inventory : Option Int
  tagId : Option Bytes
  archived : Bool
  deriving DecidableEq, Repr

/-- The texts of a statement are those of its literals, as `pgvalue` makes
them. -/
inductive Effect where
  /-- `UPDATE classes SET inventory=inventory-($value-groups.count) ..` -/
  | takeStock (key : GroupKey) (value : Int)
  /-- `UPDATE groups SET count=$value ..` -/
  | setCount (key : GroupKey) (value : Int)
  /-- `SELECT id FROM tags WHERE NOT EXISTS( .. ) LIMIT 1` -/
  | freeTag
  /-- `UPDATE groups SET tag_id=.. WHERE .. AND count=target` -/
  | setTag (key : GroupKey) (tag : Option Bytes)
  /-- `UPDATE kits SET status=.. ` -/
  | setStatus (orderId kitId status : Int)
  /-- `SELECT groups.id,.. FROM groups LEFT JOIN classes .. ORDER BY ..` -/
  | kitGoals (orderId kitId : Int)
  /-- `SELECT * FROM orders WHERE id=..` -/
  | findOrder (orderId : Int)
  /-- `SELECT * FROM kits WHERE order_id=.. AND id=..` -/
  | findKit (orderId kitId : Int)
  /-- `TRUNCATE classes,groups,kits,orders,tags RESTART IDENTITY CASCADE` -/
  | truncate
  /-- `INSERT INTO orders DEFAULT VALUES RETURNING id` -/
  | insertOrder
  /-- `WITH t AS( UPDATE orders .. )INSERT INTO kits(id,order_id) ..` -/
  | insertKit (orderId : Int)
  /-- `SELECT id FROM classes WHERE description=..` -/
  | findClass (description : Bytes)
  /-- `INSERT INTO classes(description) VALUES(..) RETURNING id` -/
  | insertClass (description : Bytes)
  /-- `UPDATE classes SET inventory=.. WHERE id=..` -/
  | setInventory (classId value : Int)
  /-- `INSERT INTO tags(id) VALUES(..)` -/
  | insertTag (tag : Bytes)
  /-- `WITH t AS(UPDATE kits .. ) INSERT INTO groups(..) ..` -/
  | insertGroup (orderId kitId : Option Int) (row : NewGroup)
  /-- `INSERT INTO users(username,password) VALUES(..,decode(md5(..),'hex'))` -/
  | insertUser (username : Bytes) (password : Option Bytes)
  /-- `SELECT id,username FROM users WHERE upper(username)=upper(..)` -/
  | findUserByName (username : Option Bytes)
  /-- `SELECT id,username FROM users WHERE password=decode(md5(..),'hex')` -/
  | findUserByPassword (password : Bytes)
  /-- `UPDATE kits SET user_id=.. WHERE id=..` -/
  | assignKit (userId kitId : Int)
  /-- `SELECT id,kit_count,deadline FROM orders ORDER BY id` -/
  | listOrders
  /-- `SELECT kits.id id,.. FROM kits LEFT JOIN users .. ORDER BY id` -/
  | listKits (orderId : Int)
  /-- `exec( $command )` -/
  | shell (command : Bytes)
  deriving DecidableEq

/-- What the server reads from the result of an effect. -/
@[reducible]
def Answer : Effect → Type
  | .takeStock _ _ => Nat
  | .freeTag => Option Bytes
  | .kitGoals _ _ => List Goal
  | .findOrder _ => Option OrderRow
  | .findKit _ _ => Option KitRow
  | .insertOrder => Int
  | .insertKit _ => Option Int
  | .findClass _ => Option Int
  | .insertClass _ => Int
  | .findUserByName _ => Option UserRow
  | .findUserByPassword _ => Option UserRow
  | .listOrders => List OrderRow
  | .listKits _ => List (KitRow × Option Bytes)
  | _ => Unit

/-- A program of the server. -/
abbrev Php := Program Effect Answer

/-- Issue one effect. -/
def query (effect : Effect) : Php (Answer effect) :=
  Program.issue effect

namespace Db

/-- The group that a class row is joined with in the take statement.  If
several groups qualify, the statement uses only one of them. -/
def takeSource
    (db : Db) (key : GroupKey) (value : Int) (row : ClassRow) :
    Option GroupRow :=
  db.groups.find? (fun group =>
    group.key = key ∧ row.id = group.classId ∧
      value - group.count ≤ row.inventory)

/-- The class row after the take statement. -/
def takeFrom
    (db : Db) (key : GroupKey) (value : Int) (row : ClassRow) : ClassRow :=
  match db.takeSource key value row with
  | some group =>
      { row with inventory := row.inventory - (value - group.count) }
  | none => row

theorem takeFrom_id
    (db : Db) (key : GroupKey) (value : Int) (row : ClassRow) :
    (db.takeFrom key value row).id = row.id := by
  simp only [takeFrom]
  split <;> rfl

/-- The number of class rows that the take statement affects. -/
def takeAffected (db : Db) (key : GroupKey) (value : Int) : Nat :=
  (db.classes.rows.filter
    (fun row => (db.takeSource key value row).isSome)).length

def takeStock (db : Db) (key : GroupKey) (value : Int) : Db :=
  { db with
    classes :=
      db.classes.update (db.takeFrom key value) (db.takeFrom_id key value) }

def setCount (db : Db) (key : GroupKey) (value : Int) : Db :=
  { db with
    groups :=
      updateWhere (fun row => row.key = key)
        (fun row => { row with count := value }) db.groups }

/-- A tag that no group carries. -/
def freeTag (db : Db) : Option Bytes :=
  db.tags.find? (fun tag =>
    !db.groups.any (fun row => row.tagId == some tag))

def setTag (db : Db) (key : GroupKey) (tag : Option Bytes) : Db :=
  { db with
    groups :=
      updateWhere (fun row => row.key = key ∧ row.count = row.target)
        (fun row => { row with tagId := tag }) db.groups }

def setStatus (db : Db) (orderId kitId status : Int) : Db :=
  { db with
    kits :=
      updateWhere (fun row => row.orderId = orderId ∧ row.id = kitId)
        (fun row => { row with status := status }) db.kits }

/-- The joined row of a group in the response. -/
def goal (db : Db) (row : GroupRow) : Goal :=
  let found := db.classes.lookup row.classId
  { id := row.id
    description := found.map ClassRow.description
    pn := found.bind ClassRow.pn
    sn := found.bind ClassRow.sn
    weight := found.bind ClassRow.weight
    location := found.bind ClassRow.location
    count := row.count
    target := row.target
    inventory := found.map ClassRow.inventory
    tagId := row.tagId
    archived := row.archived }

def kitGoals (db : Db) (orderId kitId : Int) : List Goal :=
  ((db.groups.filter
      (fun row => row.orderId = orderId ∧ row.kitId = kitId)).map
    db.goal).insertionSort (fun left right => left.id ≤ right.id)

def findKit (db : Db) (orderId kitId : Int) : Option KitRow :=
  db.kits.find? (fun row => row.orderId = orderId ∧ row.id = kitId)

def truncate (db : Db) : Db :=
  { Db.empty with users := db.users }

def insertOrder (db : Db) : Db :=
  { db with
    orders :=
      db.orders.insert (fun id => { id := id, kitCount := 0 })
        (fun _ => rfl) }

/-- Count one more kit of the order and insert the kit under the old count. -/
def insertKit (db : Db) (status orderId : Int) : Db :=
  { db with
    orders :=
      db.orders.update
        (fun row =>
          { row with
            kitCount :=
              if row.id = orderId then row.kitCount + 1 else row.kitCount })
        (fun _ => rfl)
    kits :=
      db.kits ++
        (db.orders.lookup orderId).toList.map (fun row =>
          { orderId := orderId
            id := row.kitCount
            groupCount := 0
            status := status
            userId := none }) }

def findClass (db : Db) (description : Bytes) : Option Int :=
  (db.classes.rows.find? (fun row => row.description = description)).map
    ClassRow.id

def insertClass (db : Db) (defaults : Defaults) (description : Bytes) : Db :=
  { db with
    classes :=
      db.classes.insert
        (fun id =>
          { id := id
            description := description
            pn := defaults.pn
            sn := defaults.sn
            weight := defaults.weight
            location := defaults.location
            inventory := defaults.inventory })
        (fun _ => rfl) }

def setInventory (db : Db) (classId value : Int) : Db :=
  { db with
    classes :=
      db.classes.update
        (fun row =>
          { row with
            inventory :=
              if row.id = classId then value else row.inventory })
        (fun _ => rfl) }

/-- Insert a tag; an existing tag violates the key and is refused. -/
def insertTag (db : Db) (encoding : Encoding) (tag : Bytes) : Db :=
  if encoding.valid tag ∧ tag ∉ db.tags then
    { db with tags := db.tags ++ [tag] }
  else
    db

/-- Count one more group of the kit and insert the group under the old
count. -/
def insertGroup
    (db : Db) (encoding : Encoding) (orderId kitId : Option Int)
    (new : NewGroup) : Db :=
  match orderId, kitId with
  | some order, some kit =>
      if new.tag.all encoding.valid then
        { db with
          kits :=
            updateWhere (fun row => row.id = kit ∧ row.orderId = order)
              (fun row => { row with groupCount := row.groupCount + 1 })
              db.kits
          groups :=
            db.groups ++
              (db.kits.filter
                  (fun row => row.id = kit ∧ row.orderId = order)).map
                (fun row =>
                  { orderId := order
                    kitId := kit
                    id := row.groupCount
                    count := new.count
                    target := new.target
                    classId := new.classId
                    tagId := new.tag
                    archived := new.archived }) }
      else
        db
  | _, _ => db

def insertUser
    (db : Db) (server : Server) (username : Bytes)
    (password : Option Bytes) : Db :=
  if server.encoding.valid username ∧
      password.all server.encoding.valid then
    { db with
      users :=
        db.users.insert
          (fun id =>
            { id := id
              username := username
              password := password.map server.md5 })
          (fun _ => rfl) }
  else
    db

/-- The first user whose name agrees up to case. -/
def findUserByName
    (db : Db) (server : Server) (username : Option Bytes) :
    Option UserRow :=
  match username with
  | some name =>
      if server.encoding.valid name then
        db.users.rows.find?
          (fun row => server.upper row.username = server.upper name)
      else
        none
  | none => none

/-- The first user with the digest of the password. -/
def findUserByPassword
    (db : Db) (server : Server) (password : Bytes) : Option UserRow :=
  if server.encoding.valid password then
    db.users.rows.find?
      (fun row => row.password = some (server.md5 password))
  else
    none

def assignKit (db : Db) (userId kitId : Int) : Db :=
  { db with
    kits :=
      updateWhere (fun row => row.id = kitId)
        (fun row => { row with userId := some userId }) db.kits }

def listOrders (db : Db) : List OrderRow :=
  db.orders.rows.insertionSort (fun left right => left.id ≤ right.id)

def listKits (db : Db) (orderId : Int) : List (KitRow × Option Bytes) :=
  ((db.kits.filter (fun row => row.orderId = orderId)).insertionSort
      (fun left right => left.id ≤ right.id)).map
    (fun row =>
      (row, (row.userId.bind db.users.lookup).map UserRow.username))

end Db

/-- The meaning of one effect. -/
def perform (server : Server) : Handler Effect Answer Db
  | .takeStock key value, db =>
      (db.takeAffected key value, db.takeStock key value)
  | .setCount key value, db => ((), db.setCount key value)
  | .freeTag, db => (db.freeTag, db)
  | .setTag key tag, db => ((), db.setTag key tag)
  | .setStatus orderId kitId status, db =>
      ((), db.setStatus orderId kitId status)
  | .kitGoals orderId kitId, db => (db.kitGoals orderId kitId, db)
  | .findOrder orderId, db => (db.orders.lookup orderId, db)
  | .findKit orderId kitId, db => (db.findKit orderId kitId, db)
  | .truncate, db => ((), db.truncate)
  | .insertOrder, db => (db.orders.nextKey, db.insertOrder)
  | .insertKit orderId, db =>
      ((db.orders.lookup orderId).map OrderRow.kitCount,
        db.insertKit server.defaults.status orderId)
  | .findClass description, db => (db.findClass description, db)
  | .insertClass description, db =>
      (db.classes.nextKey, db.insertClass server.defaults description)
  | .setInventory classId value, db => ((), db.setInventory classId value)
  | .insertTag tag, db => ((), db.insertTag server.encoding tag)
  | .insertGroup orderId kitId row, db =>
      ((), db.insertGroup server.encoding orderId kitId row)
  | .insertUser username password, db =>
      ((), db.insertUser server username password)
  | .findUserByName username, db => (db.findUserByName server username, db)
  | .findUserByPassword password, db =>
      (db.findUserByPassword server password, db)
  | .assignKit userId kitId, db => ((), db.assignKit userId kitId)
  | .listOrders, db => (db.listOrders, db)
  | .listKits orderId, db => (db.listKits orderId, db)
  | .shell _, db => ((), db)

/-! ## Kinds of effects -/

/-- The effect only looks something up. -/
def Effect.reads : Effect → Bool
  | .freeTag | .kitGoals _ _ | .findOrder _ | .findKit _ _ | .findClass _
  | .findUserByName _ | .findUserByPassword _ | .listOrders | .listKits _ =>
      true
  | _ => false

/-- The effect resets the tables or inserts a row. -/
def Effect.loads : Effect → Bool
  | .truncate | .insertOrder | .insertKit _ | .insertClass _ | .insertTag _
  | .insertGroup _ _ _ | .insertUser _ _ => true
  | _ => false

theorem perform_reads
    (server : Server) {effect : Effect} (reads : effect.reads = true)
    (db : Db) : (perform server effect db).2 = db := by
  cases effect <;> first | rfl | cases reads

/-- A program that only looks things up leaves the store as it is. -/
theorem exec_of_reads
    {α : Type} {program : Php α}
    (reads : program.Issues (fun effect => effect.reads = true))
    (server : Server) (db : Db) :
    program.exec (perform server) db = db := by
  have kept :
      ∀ effect current,
        effect.reads = true → current = db →
          (perform server effect current).2 = db := by
    rintro effect current lookup rfl
    exact perform_reads server lookup current
  exact reads.exec kept rfl

/-- A server whose encoding accepts every text without a zero byte, with the
digests of two short passwords and ASCII case conversion. -/
def Server.plain : Server where
  encoding :=
    { valid := fun text => text.all (fun byte => byte != 0)
      valid_nil := rfl
      valid_split := by
        intro left right separator positive _
        have nonzero : (separator != 0) = true := by
          rw [bne_iff_ne]
          rintro rfl
          exact absurd positive (by decide)
        simp [nonzero]
      valid_nonzero := by
        intro text valid member
        exact absurd (List.all_eq_true.mp valid 0 member) (by decide) }
  md5 := fun text =>
    if text = bytes "a" then
      [0x0c, 0xc1, 0x75, 0xb9, 0xc0, 0xf1, 0xb6, 0xa8,
        0x31, 0xc3, 0x99, 0xe2, 0x69, 0x77, 0x26, 0x61]
    else if text = bytes "b" then
      [0x92, 0xeb, 0x5f, 0xfe, 0xe6, 0xae, 0x2f, 0xec,
        0x3a, 0xd7, 0x1c, 0x77, 0x75, 0x31, 0x57, 0x8f]
    else
      []
  upper := fun text =>
    text.map (fun byte =>
      if 97 ≤ byte ∧ byte ≤ 122 then byte - 32 else byte)
  defaults :=
    { pn := none
      sn := none
      weight := none
      location := none
      inventory := 0
      status := 0 }

/-- A store with ten bolts, two tags, and one kit whose two groups need five
bolts each. -/
def Db.bolts : Db where
  classes :=
    SerialTable.empty.insert
      (fun id =>
        { id := id
          description := bytes "bolt"
          pn := none
          sn := none
          weight := none
          location := none
          inventory := 10 })
      (fun _ => rfl)
  tags := [bytes "t1", bytes "t2"]
  orders :=
    SerialTable.empty.insert (fun id => { id := id, kitCount := 1 })
      (fun _ => rfl)
  kits :=
    [{ orderId := 1, id := 0, groupCount := 2, status := 0, userId := none }]
  groups :=
    [{ orderId := 1, kitId := 0, id := 0, count := 0, target := 5,
       classId := 1, tagId := none, archived := false },
     { orderId := 1, kitId := 0, id := 1, count := 0, target := 5,
       classId := 1, tagId := none, archived := false }]
  users := SerialTable.empty

end LtlsKitting.Store
