import LtlsKitting.Store.Effects

/-!
# The init script

`operations.php` selects the order and the kit that a request names, and loads
the database from a posted script.  The script is a list of lines.  A header
line selects the meaning of the lines that follow it; orders and kits are
created by their headers.  The loop carries the current mode, order and kit.

The mode is the result of `array_search`, an index or `false`, and it is
compared loosely with the indices, so `false` counts as the index of the first
section.
-/

namespace LtlsKitting.Operations

open LtlsKitting.Php LtlsKitting.Store LtlsKitting.Interaction

/-- A message is an array of texts. -/
abbrev Message := List Bytes

/-- The sections of a script, in the order of the searched array. -/
inductive Mode where
  | inventory
  | tags
  | order
  | kit
  | items
  | users
  deriving DecidableEq, Repr

/-- `array_search( $name,array( "INVENTORY",.. ) )`; `none` is `false`. -/
def searchMode (name : Bytes) : Option Mode :=
  [(bytes "INVENTORY", Mode.inventory), (bytes "TAGS", Mode.tags),
    (bytes "ORDER", Mode.order), (bytes "KIT", Mode.kit),
    (bytes "ITEMS", Mode.items), (bytes "USERS", Mode.users)].lookup name

/-- The loose comparison of the mode with the index of a section. -/
def modeIs (mode : Option Mode) (wanted : Mode) : Bool :=
  match mode with
  | none => wanted == .inventory
  | some found => found == wanted

/-- The variables of the loop over the lines. -/
structure LoopState where
  mode : Option Mode
  orderId : Option Int
  kitId : Option Int
  messages : List Message

def LoopState.say (state : LoopState) (message : Message) : LoopState :=
  { state with messages := state.messages ++ [message] }

/-- The class of a name, created if it does not exist. -/
def createClass (classname : Bytes) : Php Int := do
  let description := pgvalue (leadingName classname)
  let found ← query (.findClass description)
  match found with
  | some id => pure id
  | none => query (.insertClass description)

def createRfid (tagname : Bytes) : Php Unit :=
  query (.insertTag (pgvalue tagname))

/-- A header line. -/
def processHeader (state : LoopState) (line : Bytes) : Php LoopState :=
  match sectionHeader line with
  | none => pure state
  | some name =>
      let mode := searchMode name
      if modeIs mode .order then do
        let id ← query .insertOrder
        pure
          (LoopState.say
            { state with mode := mode, orderId := some id, kitId := none }
            [bytes "lime", bytes "black",
              bytes "Created new order with ID " ++ decimal id])
      else if modeIs mode .kit then
        match state.orderId with
        | some orderId => do
            let kit ← query (.insertKit orderId)
            pure { state with mode := mode, kitId := some (kit.getD 0) }
        | none => pure { state with mode := mode }
      else
        pure { state with mode := mode }

/-- The fields of a line `name,quantity` of the inventory. -/
structure InventoryFields where
  name : Bytes
  quantity : Bytes

def inventoryFields (line : Bytes) : Option InventoryFields :=
  match explode 44 line with
  | [name, quantity] => some ⟨name, quantity⟩
  | _ => none

def processInventory (line : Bytes) : Php Unit :=
  match inventoryFields line with
  | some fields => do
      let id ← createClass fields.name
      query (.setInventory id (intval fields.quantity))
  | none => pure ()

/-- The fields of a line `target,count,tag,archived,name` of a kit. -/
structure ItemFields where
  target : Bytes
  count : Bytes
  tag : Bytes
  archived : Bytes
  className : Bytes

/-- The name may contain commas, and its last byte is cut off. -/
def itemFields (line : Bytes) : Option ItemFields :=
  match explode 44 line with
  | target :: count :: tag :: archived :: first :: more =>
      some
        { target := target
          count := count
          tag := tag
          archived := archived
          className := withoutLastByte (implode 44 (first :: more)) }
  | _ => none

/-- The tag of an item is created with it. -/
def createItemTag (tag : Bytes) : Php (Option Bytes) :=
  if tag = [] then
    pure none
  else do
    createRfid tag
    pure (some (pgvalue tag))

def processItem (orderId kitId : Option Int) (line : Bytes) : Php Unit :=
  match itemFields line with
  | some fields => do
      let classId ← createClass fields.className
      let tagId ← createItemTag fields.tag
      query
        (.insertGroup orderId kitId
          { count := intval fields.count
            target := intval fields.target
            classId := classId
            tag := tagId
            archived :=
              !(fields.archived == bytes "f" || fields.archived == []) })
  | none => pure ()

/-- A line `name,password`.  The length check counts a boolean and always
passes. -/
def processUser (line : Bytes) : Php Unit :=
  query
    (.insertUser (pgvalue ((explode 44 line).headD []))
      ((explode 44 line)[1]?.map pgvalue))

def isComment (line : Bytes) : Bool :=
  line = [] ∨ line.head? = some 35

def isHeader (line : Bytes) : Bool :=
  line.head? = some 91

/-- A line that is neither a comment nor a header.  Orders and kits have no
parameters. -/
def processContent (state : LoopState) (line : Bytes) : Php Unit :=
  if modeIs state.mode .inventory then
    processInventory line
  else if modeIs state.mode .tags then
    createRfid (withoutLastByte line)
  else if modeIs state.mode .order then
    pure ()
  else if modeIs state.mode .kit then
    pure ()
  else if modeIs state.mode .items then
    processItem state.orderId state.kitId line
  else if modeIs state.mode .users then
    processUser line
  else
    pure ()

/-- One line of the script. -/
def processLine (state : LoopState) (line : Bytes) : Php LoopState :=
  if isComment line then
    pure
      (state.say
        [bytes "silver", bytes "black", bytes "Read comment: " ++ line])
  else if isHeader line then
    processHeader state line
  else do
    processContent state line
    pure state

def scriptLoop (state : LoopState) : List Bytes → Php LoopState
  | [] => pure state
  | line :: rest => do
      let next ← processLine state line
      scriptLoop next rest

/-- The loop variables before the first line. -/
def LoopState.start (messages : List Message) : LoopState where
  mode := some .inventory
  orderId := none
  kitId := none
  messages := messages

/-- The lines of the posted script; an array has none. -/
def codeLines : Param → List Bytes
  | .text code => explode 10 code
  | .array _ => []

/-- Reset the database and load the posted script. -/
def initScript (messages : List Message) (code : Param) :
    Php (List Message) := do
  query .truncate
  let final ← scriptLoop (LoopState.start messages) (codeLines code)
  pure final.messages

/-- The order and the kit that the request names. -/
def selectCurrent (orderId kitId : Option Param) :
    Php (Option OrderRow × Option KitRow) :=
  match orderId with
  | none => pure (none, none)
  | some orderParam => do
      let order ← query (.findOrder orderParam.intval)
      match order, kitId with
      | some row, some kitParam => do
          let kit ← query (.findKit row.id kitParam.intval)
          pure (order, kit)
      | _, _ => pure (order, none)

theorem selectCurrent_reads (orderId kitId : Option Param) :
    (selectCurrent orderId kitId).Issues
      (fun effect => effect.reads = true) := by
  simp only [selectCurrent]
  cases orderId with
  | none =>
      exact Program.issues_pure _ _
  | some orderParam =>
      refine Program.issues_bind (Program.issues_issue rfl) ?_
      intro order
      split
      · exact
          Program.issues_bind (Program.issues_issue rfl)
            (fun _ => Program.issues_pure _ _)
      · exact Program.issues_pure _ _

end LtlsKitting.Operations
