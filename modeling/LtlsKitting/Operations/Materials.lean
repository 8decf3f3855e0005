import LtlsKitting.Operations.Newlines

/-!
# The materials of a script

A line of the inventory and a line of a kit name a material, which is resolved
to a class: the class of that description, or a new one.  The description is
the leading run of letters, digits and blanks of the name, so names that
differ behind it share a class.  A class keeps its id and its description to
the end of the script.
-/

namespace LtlsKitting.Operations

open LtlsKitting.Php LtlsKitting.Store LtlsKitting.Interaction
open LtlsKitting.Relational

/-- The name that a line passes to `create_class`. -/
def lineMaterial (mode : Option Mode) (line : Bytes) : Option Bytes :=
  if isComment line || isHeader line then
    none
  else
    match mode with
    | none | some .inventory =>
        (inventoryFields line).map InventoryFields.name
    | some .items => (itemFields line).map ItemFields.className
    | some .tags | some .order | some .kit | some .users => none

/-- The quantity that a line sets. -/
def lineQuantity (mode : Option Mode) (line : Bytes) : Option Int :=
  match mode with
  | none | some .inventory =>
      (inventoryFields line).map (fun fields => intval fields.quantity)
  | some .tags | some .order | some .kit | some .items | some .users => none

/-- The description and the quantity that a line enters. -/
def lineEntry (mode : Option Mode) (line : Bytes) :
    Option (Bytes × Option Int) :=
  (lineMaterial mode line).map (fun name =>
    (leadingName name, lineQuantity mode line))

/-- The store after a description and a quantity were entered. -/
def enterClass
    (server : Server) (db : Db) (entry : Bytes × Option Int) : Db :=
  match entry.2 with
  | none => ensureClass server db entry.1
  | some quantity =>
      (ensureClass server db entry.1).setInventory (resolveClass db entry.1)
        quantity

theorem classes_loadItem
    (server : Server) (db : Db) (orderId kitId : Option Int)
    (fields : ItemFields) :
    (loadItem server db orderId kitId fields).classes =
      (ensureClass server db (leadingName fields.className)).classes := by
  have tagged :=
    (tables_ensureItemTag server
      (ensureClass server db (leadingName fields.className))
      fields.tag).2.2.2
  rw [← tagged]
  simp only [loadItem, Db.insertGroup]
  split
  · split <;> rfl
  · rfl

theorem classes_headerStore
    (server : Server) (db : Db) (orderId : Option Int)
    (mode : Option Mode) :
    (headerStore server db orderId mode).classes = db.classes := by
  simp only [headerStore]
  split
  · rfl
  · split
    · split <;> rfl
    · rfl

theorem classes_insertUser
    (server : Server) (db : Db) (username : Bytes)
    (password : Option Bytes) :
    (db.insertUser server username password).classes = db.classes := by
  simp only [Db.insertUser]
  split <;> rfl

/-- A line changes the classes as its entry does. -/
theorem classes_lineStore
    (server : Server) (db : Db) (state : LoopState) (line : Bytes) :
    (lineStore server db state line).classes =
      ((lineEntry state.mode line).elim db (enterClass server db)).classes := by
  simp only [lineStore, lineEntry, lineMaterial]
  by_cases comment : isComment line
  · simp only [comment, if_true, Bool.true_or]
    rfl
  by_cases header : isHeader line
  · simp only [comment, header, if_true, Bool.or_true]
    cases sectionHeader line with
    | none => rfl
    | some name => exact classes_headerStore server db _ _
  simp only [comment, header, Bool.or_self, Bool.false_eq_true, if_false]
  simp only [contentStore, lineQuantity]
  rcases state.mode with _ | mode
  · cases inventoryFields line with
    | none => rfl
    | some fields => rfl
  · cases mode with
    | inventory =>
        cases inventoryFields line with
        | none => rfl
        | some fields => rfl
    | tags => exact (db.tables_insertTag _ _).2.2.2
    | order => rfl
    | kit => rfl
    | items =>
        cases itemFields line with
        | none => rfl
        | some fields => exact classes_loadItem server db _ _ fields
    | users => exact classes_insertUser server db _ _

/-! ## Ids and descriptions -/

/-- The class has that id and that description. -/
def Described (db : Db) (id : Int) (description : Bytes) : Prop :=
  ∃ row ∈ db.classes.rows, row.id = id ∧ row.description = description

theorem Described.of_classes
    {db after : Db} {id : Int} {description : Bytes}
    (described : Described db id description)
    (same : after.classes = db.classes) : Described after id description := by
  rw [Described, same]
  exact described

theorem Described.setInventory
    {db : Db} {id : Int} {description : Bytes}
    (described : Described db id description) (classId value : Int) :
    Described (db.setInventory classId value) id description := by
  obtain ⟨row, member, named⟩ := described
  exact ⟨_, List.mem_map_of_mem member, named⟩

/-- The classes that were there keep their ids and descriptions. -/
theorem Described.enterClass
    {db : Db} {id : Int} {description : Bytes}
    (described : Described db id description) (server : Server)
    (entry : Bytes × Option Int) :
    Described (Operations.enterClass server db entry) id description := by
  have ensured : Described (ensureClass server db entry.1) id description := by
    obtain ⟨row, member, named⟩ := described
    exact ⟨row, (classEnsured server db entry.1).kept row member, named⟩
  simp only [Operations.enterClass]
  split
  · exact ensured
  · exact ensured.setInventory _ _

/-- The entered description belongs to the class it is resolved to. -/
theorem described_enterClass
    (server : Server) (db : Db) (entry : Bytes × Option Int) :
    Described (enterClass server db entry) (resolveClass db entry.1)
      entry.1 := by
  have resolved :
      Described (ensureClass server db entry.1) (resolveClass db entry.1)
        entry.1 :=
    (classEnsured server db entry.1).resolved
  simp only [enterClass]
  split
  · exact resolved
  · exact resolved.setInventory _ _

theorem Described.lineStore
    {db : Db} {id : Int} {description : Bytes}
    (described : Described db id description) (server : Server)
    (state : LoopState) (line : Bytes) :
    Described (Operations.lineStore server db state line) id description := by
  apply Described.of_classes _ (classes_lineStore server db state line)
  cases lineEntry state.mode line with
  | none => exact described
  | some entry => exact described.enterClass server entry

theorem Described.run
    {current : LoopState × Db} {id : Int} {description : Bytes}
    (described : Described current.2 id description) (server : Server)
    (lines : List Bytes) :
    Described (runActions (lineStep server) current lines).2 id
      description := by
  induction lines generalizing current with
  | nil =>
      exact described
  | cons line rest inductionHypothesis =>
      exact inductionHypothesis (described.lineStore server current.1 line)

/-- The material of a line belongs to the class that the line is resolved
to. -/
theorem described_lineStore
    (server : Server) (db : Db) {state : LoopState} {line name : Bytes}
    (material : lineMaterial state.mode line = some name) :
    Described (lineStore server db state line)
      (resolveClass db (leadingName name)) (leadingName name) := by
  apply Described.of_classes _ (classes_lineStore server db state line)
  rw [lineEntry, material]
  exact described_enterClass server db _

/-- In a consistent store, ids and descriptions determine each other. -/
theorem described_eq_iff
    {db : Db} (consistent : db.Consistent)
    {first second : ClassRow} (firstMember : first ∈ db.classes.rows)
    (secondMember : second ∈ db.classes.rows) :
    first = second ↔ first.description = second.description :=
  ⟨congrArg ClassRow.description,
    consistent.descriptions.eq_of_key_eq firstMember secondMember⟩

/-! ## Lines with carriage returns -/

/-- A line `name,quantity` of the inventory or a line
`target,count,tag,archived,name` of a kit, without its terminator. -/
structure NamesMaterial (mode : Option Mode) (line name : Bytes) : Prop where
  content : (isComment line || isHeader line) = false
  fields :
    (modeIs mode .inventory = true ∧
        ∃ quantity, explode 44 line = [name, quantity]) ∨
      (mode = some .items ∧
        ∃ target count tag archived,
          explode 44 line = [target, count, tag, archived, name])

/-- With a carriage return, the whole name is passed to `create_class`. -/
theorem lineMaterial_return {mode : Option Mode} {line name : Bytes}
    (names : NamesMaterial mode line name) :
    lineMaterial mode (line ++ [13]) = some name := by
  have nonempty : line ≠ [] := by
    rintro rfl
    exact absurd names.content (by decide)
  have content :
      (isComment (line ++ [13]) || isHeader (line ++ [13])) = false := by
    rw [isComment_append_return nonempty, isHeader_append_return nonempty]
    exact names.content
  simp only [lineMaterial, content, Bool.false_eq_true, if_false]
  rcases names.fields with
    ⟨isInventory, quantity, split⟩ |
      ⟨rfl, target, count, tag, archived, split⟩
  · have fields :
        (inventoryFields (line ++ [13])).map InventoryFields.name =
          some name := by
      rw [inventoryFields_append_return]
      simp only [inventoryFields, split, Option.map_some]
    rcases mode with _ | mode
    · exact fields
    · cases mode with
      | inventory => exact fields
      | tags => cases isInventory
      | order => cases isInventory
      | kit => cases isInventory
      | items => cases isInventory
      | users => cases isInventory
  · dsimp only
    rw [itemFields_append_return]
    simp [itemFields, itemName, split, implode]

/-- The class that `create_class` returns for the line at the given index. -/
def lineClass
    (server : Server) (messages : List Message) (db : Db) (text : Bytes)
    (index : Nat) : Option Int :=
  let before :=
    runActions (lineStep server) (LoopState.start messages, db.truncate)
      ((explode 10 text).take index)
  ((explode 10 text)[index]?).bind (fun line =>
    (lineMaterial before.1.mode line).map (fun name =>
      (createClass name).eval (perform server) before.2))

/-- The line at an index of the sent text, with the lines around it. -/
theorem explode_terminated_return_at {lines : List Bytes}
    (clean : ∀ line ∈ lines, 10 ∉ line) {index : Nat} {line : Bytes}
    (present : lines[index]? = some line) :
    (explode 10 (terminatedText [13, 10] lines))[index]? =
        some (line ++ [13]) ∧
      (explode 10 (terminatedText [13, 10] lines)).take index =
        (lines.take index).map (fun other => other ++ [13]) := by
  have inside : index < lines.length := (List.getElem?_eq_some_iff.mp present).1
  rw [explode_terminated_return clean]
  constructor
  · rw [List.getElem?_append_left (by simpa using inside), List.getElem?_map,
      present]
    rfl
  · rw [List.take_append_of_le_length (by simpa using inside.le),
      List.map_take]

/-- A line that names a material is resolved to a class that is there in the
end, with the description of the material. -/
theorem lineClass_of_namesMaterial
    (server : Server) (messages : List Message) (db : Db)
    {lines : List Bytes} (clean : ∀ line ∈ lines, 10 ∉ line)
    {index : Nat} {line name : Bytes} (present : lines[index]? = some line)
    (names :
      NamesMaterial ((lines.take index).foldl nextMode (some .inventory)) line
        name) :
    ∃ row ∈
        (loadedStore server messages db
          (terminatedText [13, 10] lines)).classes.rows,
      row.description = leadingName name ∧
        lineClass server messages db (terminatedText [13, 10] lines) index =
          some row.id := by
  obtain ⟨sent, sentBefore⟩ := explode_terminated_return_at clean present
  have mode :=
    mode_run server (LoopState.start messages, db.truncate)
      ((explode 10 (terminatedText [13, 10] lines)).take index)
  rw [sentBefore, foldl_nextMode_return] at mode
  have whole :=
    loadedStore_eq server messages db (terminatedText [13, 10] lines)
  rw [← List.take_append_drop index
      (explode 10 (terminatedText [13, 10] lines)),
    List.drop_eq_getElem?_toList_append, sent, runActions_append] at whole
  simp only [lineClass, sent, Option.bind_some]
  rw [sentBefore] at whole ⊢
  generalize
    runActions (lineStep server) (LoopState.start messages, db.truncate)
      ((lines.take index).map (fun other => other ++ [13])) = current
    at mode whole ⊢
  have material : lineMaterial current.1.mode (line ++ [13]) = some name := by
    rw [mode]
    exact lineMaterial_return names
  obtain ⟨row, member, isId, isDescription⟩ :=
    @Described.run (lineStep server current (line ++ [13])) _ _
      (described_lineStore server current.2 material) server
      (List.drop (index + 1) (explode 10 (terminatedText [13, 10] lines)))
  refine ⟨row, ?_, isDescription, ?_⟩
  · rw [whole]
    exact member
  · rw [material, Option.map_some, eval_createClass, isId]

theorem loadedStore_consistent
    (server : Server) (messages : List Message) (db : Db) (text : Bytes) :
    (loadedStore server messages db text).Consistent := by
  rw [loadedStore_eq]
  exact
    (@lines_consistent server db.truncate (Db.consistent_empty db.users)
      (LoopState.start messages) (explode 10 text)).1

/-- Two lines of a script with carriage returns that name materials are
resolved to the same class exactly if the names have the same leading run of
letters, digits and blanks. -/
theorem same_class_iff_same_leadingName
    (server : Server) (messages : List Message) (db : Db)
    (lines : List Bytes) (clean : ∀ line ∈ lines, 10 ∉ line)
    (i j : Nat) (first second left right : Bytes)
    (presentFirst : lines[i]? = some first)
    (presentSecond : lines[j]? = some second)
    (namesFirst :
      NamesMaterial ((lines.take i).foldl nextMode (some .inventory)) first
        left)
    (namesSecond :
      NamesMaterial ((lines.take j).foldl nextMode (some .inventory)) second
        right) :
    ∃ leftRow ∈
        (loadedStore server messages db
          (terminatedText [13, 10] lines)).classes.rows,
      ∃ rightRow ∈
          (loadedStore server messages db
            (terminatedText [13, 10] lines)).classes.rows,
        lineClass server messages db (terminatedText [13, 10] lines) i =
            some leftRow.id ∧
          lineClass server messages db (terminatedText [13, 10] lines) j =
              some rightRow.id ∧
            (leftRow = rightRow ↔ leadingName left = leadingName right) := by
  obtain ⟨leftRow, leftMember, isLeft, leftClass⟩ :=
    lineClass_of_namesMaterial server messages db clean presentFirst namesFirst
  obtain ⟨rightRow, rightMember, isRight, rightClass⟩ :=
    lineClass_of_namesMaterial server messages db clean presentSecond
      namesSecond
  refine
    ⟨leftRow, leftMember, rightRow, rightMember, leftClass, rightClass, ?_⟩
  rw [described_eq_iff (loadedStore_consistent server messages db _)
    leftMember rightMember, isLeft, isRight]

/-- Two lines of the inventory whose names differ behind a hyphen. -/
def hyphenLines : List Bytes :=
  [bytes "Bolt-1,5", bytes "Bolt-2,7"]

theorem hyphenLines_namesMaterial :
    NamesMaterial ((hyphenLines.take 0).foldl nextMode (some .inventory))
        (bytes "Bolt-1,5") (bytes "Bolt-1") ∧
      NamesMaterial ((hyphenLines.take 1).foldl nextMode (some .inventory))
        (bytes "Bolt-2,7") (bytes "Bolt-2") :=
  ⟨⟨by decide, Or.inl ⟨by decide, bytes "5", by decide⟩⟩,
    ⟨by decide, Or.inl ⟨by decide, bytes "7", by decide⟩⟩⟩

theorem same_class_iff_same_leadingName_hyphen :
    ∃ leftRow ∈
        (loadedStore Server.plain [] Db.empty
          (terminatedText [13, 10] hyphenLines)).classes.rows,
      ∃ rightRow ∈
          (loadedStore Server.plain [] Db.empty
            (terminatedText [13, 10] hyphenLines)).classes.rows,
        lineClass Server.plain [] Db.empty
            (terminatedText [13, 10] hyphenLines) 0 = some leftRow.id ∧
          lineClass Server.plain [] Db.empty
              (terminatedText [13, 10] hyphenLines) 1 = some rightRow.id ∧
            (leftRow = rightRow ↔
              leadingName (bytes "Bolt-1") = leadingName (bytes "Bolt-2")) :=
  same_class_iff_same_leadingName Server.plain [] Db.empty hyphenLines
    (by decide) 0 1 (bytes "Bolt-1,5") (bytes "Bolt-2,7") (bytes "Bolt-1")
    (bytes "Bolt-2") rfl rfl hyphenLines_namesMaterial.1
    hyphenLines_namesMaterial.2

/-- Different names are resolved to one class. -/
theorem hyphenLines_share_class :
    bytes "Bolt-1" ≠ bytes "Bolt-2" ∧
      NamesMaterial ((hyphenLines.take 0).foldl nextMode (some .inventory))
        (bytes "Bolt-1,5") (bytes "Bolt-1") ∧
      NamesMaterial ((hyphenLines.take 1).foldl nextMode (some .inventory))
        (bytes "Bolt-2,7") (bytes "Bolt-2") ∧
      lineClass Server.plain [] Db.empty
          (terminatedText [13, 10] hyphenLines) 0 = some 1 ∧
        lineClass Server.plain [] Db.empty
          (terminatedText [13, 10] hyphenLines) 1 = some 1 := by
  refine
    ⟨by decide, hyphenLines_namesMaterial.1, hyphenLines_namesMaterial.2, ?_,
      ?_⟩
  · decide +kernel
  · decide +kernel

end LtlsKitting.Operations
