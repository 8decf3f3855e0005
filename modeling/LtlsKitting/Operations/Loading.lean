import LtlsKitting.Operations.Script
import LtlsKitting.Store.Consistency

/-!
# What the lines of a script do

The store after each kind of line, and the mode, order and kit that the loop
carries on.  Every line keeps the store consistent, and the tags that its
groups carry grow by the tags of the item lines at most.
-/

namespace LtlsKitting.Operations

open LtlsKitting.Php LtlsKitting.Store LtlsKitting.Interaction
open LtlsKitting.Relational

/-! ## Classes and tags -/

/-- The store in which the class of a description exists. -/
def ensureClass (server : Server) (db : Db) (description : Bytes) : Db :=
  match db.findClass description with
  | some _ => db
  | none => db.insertClass server.defaults description

/-- The class that a description is resolved to. -/
def resolveClass (db : Db) (description : Bytes) : Int :=
  (db.findClass description).getD db.classes.nextKey

/-- The store after the tag of an item was created. -/
def ensureItemTag (server : Server) (db : Db) (tag : Bytes) : Db :=
  if tag = [] then db else db.insertTag server.encoding (pgvalue tag)

def optionalTag (tag : Bytes) : Option Bytes :=
  if tag = [] then none else some (pgvalue tag)

section

variable (server : Server)

theorem run_createClass (db : Db) (classname : Bytes) :
    (createClass classname).run (perform server) db =
      (resolveClass db (leadingName classname),
        ensureClass server db (leadingName classname)) := by
  rw [createClass, pgvalue_leadingName]
  simp only [resolveClass, ensureClass]
  rw [Program.run_bind]
  have answer :
      (query (.findClass (leadingName classname))).run (perform server) db =
        (db.findClass (leadingName classname), db) := rfl
  rw [answer]
  cases db.findClass (leadingName classname) with
  | none => rfl
  | some id => rfl

theorem exec_createClass (db : Db) (classname : Bytes) :
    (createClass classname).exec (perform server) db =
      ensureClass server db (leadingName classname) :=
  congrArg Prod.snd (run_createClass server db classname)

theorem eval_createClass (db : Db) (classname : Bytes) :
    (createClass classname).eval (perform server) db =
      resolveClass db (leadingName classname) :=
  congrArg Prod.fst (run_createClass server db classname)

theorem run_createItemTag (db : Db) (tag : Bytes) :
    (createItemTag tag).run (perform server) db =
      (optionalTag tag, ensureItemTag server db tag) := by
  simp only [createItemTag, optionalTag, ensureItemTag]
  split <;> rfl

theorem exec_createItemTag (db : Db) (tag : Bytes) :
    (createItemTag tag).exec (perform server) db =
      ensureItemTag server db tag :=
  congrArg Prod.snd (run_createItemTag server db tag)

theorem eval_createItemTag (db : Db) (tag : Bytes) :
    (createItemTag tag).eval (perform server) db = optionalTag tag :=
  congrArg Prod.fst (run_createItemTag server db tag)

end

/-! ## Lines of the inventory and of a kit -/

/-- The store after a line of the inventory. -/
def loadInventory (server : Server) (db : Db) (fields : InventoryFields) : Db :=
  (ensureClass server db (leadingName fields.name)).setInventory
    (resolveClass db (leadingName fields.name)) (intval fields.quantity)

/-- The group of a line of a kit. -/
def itemGroup (db : Db) (fields : ItemFields) : NewGroup where
  count := intval fields.count
  target := intval fields.target
  classId := resolveClass db (leadingName fields.className)
  tag := optionalTag fields.tag
  archived := !(fields.archived == bytes "f" || fields.archived == [])

/-- The store after a line of a kit. -/
def loadItem
    (server : Server) (db : Db) (orderId kitId : Option Int)
    (fields : ItemFields) : Db :=
  (ensureItemTag server (ensureClass server db (leadingName fields.className))
      fields.tag).insertGroup server.encoding orderId kitId
    (itemGroup db fields)

section

variable (server : Server) (db : Db)

theorem exec_processInventory (line : Bytes) :
    (processInventory line).exec (perform server) db =
      match inventoryFields line with
      | some fields => loadInventory server db fields
      | none => db := by
  simp only [processInventory]
  cases inventoryFields line with
  | none =>
      rfl
  | some fields =>
      dsimp only
      rw [Program.exec_bind, exec_createClass, eval_createClass]
      rfl

theorem exec_processItem (orderId kitId : Option Int) (line : Bytes) :
    (processItem orderId kitId line).exec (perform server) db =
      match itemFields line with
      | some fields => loadItem server db orderId kitId fields
      | none => db := by
  simp only [processItem]
  cases itemFields line with
  | none =>
      rfl
  | some fields =>
      dsimp only
      rw [Program.exec_bind, Program.exec_bind, exec_createClass,
        eval_createClass, exec_createItemTag, eval_createItemTag]
      rfl

end

/-! ## Lines and scripts -/

/-- The store after a header that selects a mode. -/
def headerStore
    (server : Server) (db : Db) (orderId : Option Int) (mode : Option Mode) :
    Db :=
  if modeIs mode .order then
    db.insertOrder
  else if modeIs mode .kit then
    match orderId with
    | some order => db.insertKit server.defaults.status order
    | none => db
  else
    db

/-- The loop variables after a header that selects a mode. -/
def headerState
    (db : Db) (state : LoopState) (mode : Option Mode) : LoopState :=
  if modeIs mode .order then
    LoopState.say
      { state with
        mode := mode
        orderId := some db.orders.nextKey
        kitId := none }
      [bytes "lime", bytes "black",
        bytes "Created new order with ID " ++ decimal db.orders.nextKey]
  else if modeIs mode .kit then
    match state.orderId with
    | some order =>
        { state with
          mode := mode
          kitId :=
            some (((db.orders.lookup order).map OrderRow.kitCount).getD 0) }
    | none => { state with mode := mode }
  else
    { state with mode := mode }

/-- The store after a line that is neither a comment nor a header. -/
def contentStore
    (server : Server) (db : Db) (state : LoopState) (line : Bytes) : Db :=
  match state.mode with
  | none | some .inventory =>
      match inventoryFields line with
      | some fields => loadInventory server db fields
      | none => db
  | some .tags =>
      db.insertTag server.encoding (pgvalue (withoutLastByte line))
  | some .order | some .kit => db
  | some .items =>
      match itemFields line with
      | some fields => loadItem server db state.orderId state.kitId fields
      | none => db
  | some .users =>
      db.insertUser server (pgvalue ((explode 44 line).headD []))
        ((explode 44 line)[1]?.map pgvalue)

def lineStore
    (server : Server) (db : Db) (state : LoopState) (line : Bytes) : Db :=
  if isComment line then
    db
  else if isHeader line then
    match sectionHeader line with
    | some name => headerStore server db state.orderId (searchMode name)
    | none => db
  else
    contentStore server db state line

def lineState (db : Db) (state : LoopState) (line : Bytes) : LoopState :=
  if isComment line then
    state.say [bytes "silver", bytes "black", bytes "Read comment: " ++ line]
  else if isHeader line then
    match sectionHeader line with
    | some name => headerState db state (searchMode name)
    | none => state
  else
    state

/-- One line, on the loop variables and the store. -/
def lineStep
    (server : Server) (current : LoopState × Db) (line : Bytes) :
    LoopState × Db :=
  (lineState current.2 current.1 line,
    lineStore server current.2 current.1 line)

section

variable (server : Server)

theorem run_processHeader (db : Db) (state : LoopState) (line : Bytes) :
    (processHeader state line).run (perform server) db =
      match sectionHeader line with
      | some name =>
          (headerState db state (searchMode name),
            headerStore server db state.orderId (searchMode name))
      | none => (state, db) := by
  simp only [processHeader]
  cases sectionHeader line with
  | none =>
      rfl
  | some name =>
      dsimp only
      simp only [headerState, headerStore]
      generalize searchMode name = mode
      by_cases order : modeIs mode .order
      · simp only [order, if_true]
        rfl
      · by_cases kit : modeIs mode .kit
        · simp only [order, kit, if_true]
          cases state.orderId <;> rfl
        · simp only [order, kit]
          rfl

theorem exec_processContent (db : Db) (state : LoopState) (line : Bytes) :
    (processContent state line).exec (perform server) db =
      contentStore server db state line := by
  simp only [processContent, contentStore]
  rcases state.mode with _ | mode
  · exact exec_processInventory server db line
  · cases mode with
    | inventory => exact exec_processInventory server db line
    | tags => rfl
    | order => rfl
    | kit => rfl
    | items => exact exec_processItem server db _ _ line
    | users => rfl

/-- A line changes the loop variables and the store as `lineStep` says. -/
theorem run_processLine (db : Db) (state : LoopState) (line : Bytes) :
    (processLine state line).run (perform server) db =
      lineStep server (state, db) line := by
  simp only [processLine, lineStep, lineState, lineStore]
  by_cases comment : isComment line
  · simp only [comment, if_true]
    rfl
  · by_cases header : isHeader line
    · simp only [comment, header, if_true]
      have headerRun := run_processHeader server db state line
      cases found : sectionHeader line with
      | none =>
          rw [found] at headerRun
          exact headerRun
      | some name =>
          rw [found] at headerRun
          exact headerRun
    · simp only [comment, header]
      rw [← exec_processContent server db state line]
      exact Program.run_bind (perform server) _ _ db

/-- The loop over the lines is the run of its steps. -/
theorem run_scriptLoop (db : Db) (state : LoopState) (lines : List Bytes) :
    (scriptLoop state lines).run (perform server) db =
      runActions (lineStep server) (state, db) lines := by
  induction lines generalizing state db with
  | nil =>
      rfl
  | cons line rest inductionHypothesis =>
      rw [scriptLoop, Program.run_bind, run_processLine,
        inductionHypothesis]
      rfl

/-- The messages and the store after a posted script. -/
theorem run_initScript
    (db : Db) (messages : List Message) (code : Param) :
    (initScript messages code).run (perform server) db =
      ((runActions (lineStep server) (LoopState.start messages, db.truncate)
          (codeLines code)).1.messages,
        (runActions (lineStep server) (LoopState.start messages, db.truncate)
          (codeLines code)).2) := by
  rw [← run_scriptLoop server db.truncate (LoopState.start messages)
    (codeLines code)]
  simp only [initScript]
  rw [Program.run_bind, Program.run_bind]
  rfl

theorem exec_initScript
    (db : Db) (messages : List Message) (code : Param) :
    (initScript messages code).exec (perform server) db =
      (runActions (lineStep server) (LoopState.start messages, db.truncate)
        (codeLines code)).2 :=
  congrArg Prod.snd (run_initScript server db messages code)

theorem eval_initScript
    (db : Db) (messages : List Message) (code : Param) :
    (initScript messages code).eval (perform server) db =
      (runActions (lineStep server) (LoopState.start messages, db.truncate)
        (codeLines code)).1.messages :=
  congrArg Prod.fst (run_initScript server db messages code)

end

/-! ## Classes and tags of a line -/

/-- What is known of the store in which the class of a name exists. -/
structure ClassEnsured
    (before after : Db) (name : Bytes) (id : Int) : Prop where
  orders : after.orders = before.orders
  kits : after.kits = before.kits
  groups : after.groups = before.groups
  kept : ∀ row ∈ before.classes.rows, row ∈ after.classes.rows
  resolved :
    ∃ row ∈ after.classes.rows, row.id = id ∧ row.description = name
  names :
    ∀ other,
      other ∈ after.classes.rows.map ClassRow.description ↔
        other ∈ before.classes.rows.map ClassRow.description ∨ other = name

theorem classEnsured (server : Server) (db : Db) (name : Bytes) :
    ClassEnsured db (ensureClass server db name) name
      (resolveClass db name) := by
  simp only [ensureClass, resolveClass]
  cases found : db.findClass name with
  | none =>
      refine ⟨rfl, rfl, rfl, ?_, ?_, ?_⟩
      · intro row member
        exact List.mem_append_left _ member
      · exact
          ⟨_, List.mem_append_right _ (List.mem_singleton_self _), rfl, rfl⟩
      · intro other
        simp [Db.insertClass]
  | some id =>
      obtain ⟨row, member, sameId, sameName⟩ := Db.findClass_eq_some found
      refine ⟨rfl, rfl, rfl, fun _ known => known, ?_, ?_⟩
      · exact ⟨row, member, sameId, sameName⟩
      · intro other
        constructor
        · exact Or.inl
        · rintro (known | rfl)
          · exact known
          · rw [← sameName]
            exact List.mem_map_of_mem member

theorem tags_ensureClass (server : Server) (db : Db) (name : Bytes) :
    (ensureClass server db name).tags = db.tags := by
  simp only [ensureClass]
  split <;> rfl

/-- A class that is found keeps its description. -/
theorem ClassEnsured.lookup
    {before after : Db} {name : Bytes} {id : Int}
    (ensured : ClassEnsured before after name id)
    {classId : Int} {row : ClassRow}
    (found : before.classes.lookup classId = some row) :
    after.classes.lookup classId = some row := by
  obtain ⟨member, sameId⟩ := SerialTable.mem_of_lookup found
  rw [← sameId]
  exact SerialTable.lookup_eq_some (ensured.kept row member)

/-- Descriptions stay different if a class is created only if it is missing. -/
theorem descriptions_ensureClass
    (server : Server) {db : Db}
    (descriptions : Identifies ClassRow.description db.classes.rows)
    (name : Bytes) :
    Identifies ClassRow.description
      (ensureClass server db name).classes.rows := by
  simp only [ensureClass]
  cases found : db.findClass name with
  | none =>
      exact Db.identifies_insertClass descriptions server.defaults found
  | some id =>
      exact descriptions

/-- Making sure that the tag of an item exists changes no other table. -/
theorem tables_ensureItemTag (server : Server) (db : Db) (tag : Bytes) :
    (ensureItemTag server db tag).orders = db.orders ∧
      (ensureItemTag server db tag).kits = db.kits ∧
      (ensureItemTag server db tag).groups = db.groups ∧
      (ensureItemTag server db tag).classes = db.classes := by
  simp only [ensureItemTag]
  split
  · exact ⟨rfl, rfl, rfl, rfl⟩
  · exact db.tables_insertTag server.encoding (pgvalue tag)

/-! ## Consistency -/

section

variable {server : Server} {db : Db}

theorem consistent_ensureClass
    (consistent : db.Consistent) (description : Bytes) :
    (ensureClass server db description).Consistent := by
  simp only [ensureClass]
  cases found : db.findClass description with
  | none => exact consistent.insertClass server.defaults found
  | some id => exact consistent

theorem consistent_ensureItemTag
    (consistent : db.Consistent) (tag : Bytes) :
    (ensureItemTag server db tag).Consistent := by
  simp only [ensureItemTag]
  split
  · exact consistent
  · exact consistent.insertTag server.encoding (pgvalue tag)

theorem consistent_loadItem
    (consistent : db.Consistent) (orderId kitId : Option Int)
    (fields : ItemFields) :
    (loadItem server db orderId kitId fields).Consistent := by
  have classed :=
    @consistent_ensureClass server db consistent
      (leadingName fields.className)
  apply (consistent_ensureItemTag classed fields.tag).insertGroup
  · rw [(tables_ensureItemTag server _ fields.tag).2.2.2]
    obtain ⟨row, member, sameId, _⟩ :=
      (classEnsured server db (leadingName fields.className)).resolved
    exact ⟨row, member, sameId⟩
  · intro tag given valid
    have carried : optionalTag fields.tag = some tag := given
    simp only [optionalTag] at carried
    simp only [ensureItemTag]
    split at carried
    · cases carried
    · rename_i nonempty
      rw [if_neg nonempty, Option.some.inj carried]
      exact (Db.mem_insertTag_iff _ valid _).mpr (Or.inr rfl)

theorem consistent_headerStore
    (consistent : db.Consistent) (orderId : Option Int)
    (mode : Option Mode) :
    (headerStore server db orderId mode).Consistent := by
  simp only [headerStore]
  split
  · exact consistent.insertOrder
  · split
    · split
      · exact consistent.insertKit _ _
      · exact consistent
    · exact consistent

theorem consistent_contentStore
    (consistent : db.Consistent) (state : LoopState) (line : Bytes) :
    (contentStore server db state line).Consistent := by
  have inventory :
      (match inventoryFields line with
        | some fields => loadInventory server db fields
        | none => db).Consistent := by
    split
    · exact
        (consistent_ensureClass consistent _).setInventory _ _
    · exact consistent
  simp only [contentStore]
  split
  · exact inventory
  · exact inventory
  · exact consistent.insertTag server.encoding _
  · exact consistent
  · exact consistent
  · split
    · exact consistent_loadItem consistent _ _ _
    · exact consistent
  · exact consistent.insertUser server _ _

/-- Every line keeps the store consistent. -/
theorem consistent_lineStore
    (consistent : db.Consistent) (state : LoopState) (line : Bytes) :
    (lineStore server db state line).Consistent := by
  simp only [lineStore]
  split
  · exact consistent
  · split
    · split
      · exact consistent_headerStore consistent _ _
      · exact consistent
    · exact consistent_contentStore consistent state line

end

/-! ## Tags of the item lines -/

/-- The mode after a line. -/
def nextMode (mode : Option Mode) (line : Bytes) : Option Mode :=
  if isComment line then
    mode
  else if isHeader line then
    match sectionHeader line with
    | some name => searchMode name
    | none => mode
  else
    mode

/-- The tag that a line gives to a group. -/
def lineTag (mode : Option Mode) (line : Bytes) : Option Bytes :=
  if isComment line || isHeader line then
    none
  else
    match mode with
    | some .items =>
        (itemFields line).bind (fun fields => optionalTag fields.tag)
    | _ => none

/-- The tags that the item lines of a script use. -/
def itemTags : Option Mode → List Bytes → List Bytes
  | _, [] => []
  | mode, line :: rest =>
      (lineTag mode line).toList ++ itemTags (nextMode mode line) rest

theorem mode_lineState (db : Db) (state : LoopState) (line : Bytes) :
    (lineState db state line).mode = nextMode state.mode line := by
  simp only [lineState, nextMode]
  split
  · rfl
  · split
    · split
      · simp only [headerState]
        split
        · rfl
        · split
          · split <;> rfl
          · rfl
      · rfl
    · rfl

theorem mode_run (server : Server) (current : LoopState × Db)
    (lines : List Bytes) :
    (runActions (lineStep server) current lines).1.mode =
      lines.foldl nextMode current.1.mode := by
  induction lines generalizing current with
  | nil =>
      rfl
  | cons line rest inductionHypothesis =>
      rw [runActions_cons, inductionHypothesis, lineStep, mode_lineState]
      rfl

section

variable {server : Server} {db : Db}

/-- The tags of the groups grow by at most the given list. -/
def TagsGrow (given : List Bytes) (before after : Db) : Prop :=
  ∃ new, new.Sublist given ∧ after.groupTags = before.groupTags ++ new

theorem tagsGrow_of_groups
    {before after : Db} (same : after.groups = before.groups)
    (given : List Bytes) : TagsGrow given before after := by
  refine ⟨[], List.nil_sublist given, ?_⟩
  simp only [Db.groupTags]
  rw [same, List.append_nil]

theorem TagsGrow.trans
    {first second : List Bytes} {before between after : Db}
    (grow : TagsGrow first before between)
    (growAgain : TagsGrow second between after) :
    TagsGrow (first ++ second) before after := by
  obtain ⟨new, sublist, tags⟩ := grow
  obtain ⟨newer, sublistAgain, tagsAgain⟩ := growAgain
  refine ⟨new ++ newer, sublist.append sublistAgain, ?_⟩
  rw [tagsAgain, tags, List.append_assoc]

theorem tagsGrow_loadItem
    (consistent : db.Consistent) (orderId kitId : Option Int)
    (fields : ItemFields) :
    TagsGrow (optionalTag fields.tag).toList db
      (loadItem server db orderId kitId fields) := by
  have prepared :
      (ensureItemTag server
          (ensureClass server db (leadingName fields.className))
          fields.tag).Consistent :=
    consistent_ensureItemTag (consistent_ensureClass consistent _) _
  have sameGroups :
      (ensureItemTag server
          (ensureClass server db (leadingName fields.className))
          fields.tag).groups =
        db.groups := by
    rw [(tables_ensureItemTag server _ fields.tag).2.2.1]
    exact (classEnsured server db _).groups
  simp only [loadItem]
  rcases Db.insertGroup_cases _ server.encoding orderId kitId
      (itemGroup db fields) with
    unchanged | ⟨row, member, rfl, rfl, valid⟩
  · rw [unchanged]
    exact tagsGrow_of_groups sameGroups _
  · rw [Db.insertGroup_of_mem prepared.kitsIdentified valid member]
    refine ⟨(optionalTag fields.tag).toList, List.Sublist.refl _, ?_⟩
    simp only [Db.groupTags]
    rw [sameGroups, List.filterMap_append]
    cases carried : optionalTag fields.tag with
    | none => simp [Db.newGroupRow, itemGroup, carried]
    | some tag => simp [Db.newGroupRow, itemGroup, carried]

theorem groups_headerStore
    (server : Server) (db : Db) (orderId : Option Int)
    (mode : Option Mode) :
    (headerStore server db orderId mode).groups = db.groups := by
  simp only [headerStore]
  split
  · rfl
  · split
    · split <;> rfl
    · rfl

theorem groups_loadInventory
    (server : Server) (db : Db) (fields : InventoryFields) :
    (loadInventory server db fields).groups = db.groups :=
  (classEnsured server db _).groups

theorem groups_insertUser
    (server : Server) (db : Db) (username : Bytes)
    (password : Option Bytes) :
    (db.insertUser server username password).groups = db.groups := by
  simp only [Db.insertUser]
  split <;> rfl

/-- A line gives a tag to at most one group, and only an item line does. -/
theorem tagsGrow_lineStore
    (consistent : db.Consistent) (state : LoopState) (line : Bytes) :
    TagsGrow (lineTag state.mode line).toList db
      (lineStore server db state line) := by
  have inventory :
      (match inventoryFields line with
        | some fields => loadInventory server db fields
        | none => db).groups =
        db.groups := by
    cases inventoryFields line with
    | none => rfl
    | some fields => exact groups_loadInventory server db fields
  simp only [lineStore, lineTag]
  by_cases comment : isComment line
  · simp only [comment, if_true]
    exact tagsGrow_of_groups rfl _
  · by_cases header : isHeader line
    · simp only [comment, header, if_true]
      apply tagsGrow_of_groups
      cases sectionHeader line with
      | none => rfl
      | some name => exact groups_headerStore server db _ _
    · simp only [comment, header, Bool.or_self, Bool.false_eq_true, if_false]
      simp only [contentStore]
      rcases state.mode with _ | mode
      · exact tagsGrow_of_groups inventory _
      · cases mode with
        | items =>
            cases itemFields line with
            | none => exact tagsGrow_of_groups rfl _
            | some fields => exact tagsGrow_loadItem consistent _ _ fields
        | inventory =>
            exact tagsGrow_of_groups inventory _
        | tags =>
            exact tagsGrow_of_groups (db.tables_insertTag _ _).2.2.1 _
        | order =>
            exact tagsGrow_of_groups rfl _
        | kit =>
            exact tagsGrow_of_groups rfl _
        | users =>
            exact tagsGrow_of_groups (groups_insertUser server db _ _) _

/-- A script keeps the store consistent, and the tags of the groups grow by
at most the tags of its item lines. -/
theorem lines_consistent
    (consistent : db.Consistent) (state : LoopState) (lines : List Bytes) :
    (runActions (lineStep server) (state, db) lines).2.Consistent ∧
      TagsGrow (itemTags state.mode lines) db
        (runActions (lineStep server) (state, db) lines).2 := by
  induction lines generalizing state db with
  | nil =>
      exact ⟨consistent, tagsGrow_of_groups rfl _⟩
  | cons line rest inductionHypothesis =>
      have next := @consistent_lineStore server db consistent state line
      obtain ⟨kept, grown⟩ :=
        inductionHypothesis next (lineState db state line)
      rw [mode_lineState] at grown
      exact ⟨kept, (tagsGrow_lineStore consistent state line).trans grown⟩

end

end LtlsKitting.Operations
