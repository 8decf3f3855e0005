import LtlsKitting.Operations.Materials
import LtlsKitting.Operations.UserLines
import LtlsKitting.Relational.Registry

/-!
# Unknown sections of a script

The search for an unknown section returns `false`, which compares like the
index of the inventory.  The lines of an unknown section are therefore read as
lines of the inventory: they create classes and set quantities, and a class
that is created earlier has another id.  Everything else in the store is as it
would be without the section.

The classes are a registry of descriptions and quantities, numbered in the
order of their creation, so the rules on registries say when the section leaves
no trace.
-/

namespace LtlsKitting.Operations

open LtlsKitting.Php LtlsKitting.Store LtlsKitting.Interaction
open LtlsKitting.Relational

/-! ## The classes as a registry -/

/-- The columns of a class that are fixed when it is created. -/
def fixedColumns (row : ClassRow) :
    Int × Option Bytes × Option Bytes × Option Bytes × Option Bytes :=
  (row.id, row.pn, row.sn, row.weight, row.location)

/-- The fixed columns of the first classes that are created. -/
def numberedColumns (defaults : Defaults) (count : Nat) :
    List (Int × Option Bytes × Option Bytes × Option Bytes × Option Bytes) :=
  (List.range count).map (fun (index : Nat) =>
    ((index : Int) + 1, defaults.pn, defaults.sn, defaults.weight,
      defaults.location))

/-- The classes are the registry, numbered from one. -/
structure Registered
    (defaults : Defaults) (classes : SerialTable ClassRow.id)
    (registry : Registry Bytes Int) : Prop where
  entries :
    classes.rows.map (fun row => (row.description, row.inventory)) = registry
  columns :
    classes.rows.map fixedColumns = numberedColumns defaults registry.length
  next : classes.nextKey = registry.length + 1
  once : registry.keys.Nodup

section

variable {defaults : Defaults} {classes : SerialTable ClassRow.id}
variable {registry : Registry Bytes Int}

theorem registered_empty (defaults : Defaults) :
    Registered defaults SerialTable.empty [] where
  entries := rfl
  columns := rfl
  next := rfl
  once := List.nodup_nil

theorem Registered.keys
    (registered : Registered defaults classes registry) :
    registry.keys = classes.rows.map ClassRow.description := by
  rw [← registered.entries, Registry.keys, List.map_map]
  rfl

theorem Registered.descriptions
    (registered : Registered defaults classes registry) :
    Identifies ClassRow.description classes.rows := by
  have once := registered.once
  rw [registered.keys] at once
  exact once

/-- A registry determines the rows. -/
theorem Registered.rows_eq
    {other : SerialTable ClassRow.id}
    (registered : Registered defaults classes registry)
    (same : Registered defaults other registry) :
    classes.rows = other.rows := by
  have zipped :
      ∀ rows : List ClassRow,
        rows.map
            (fun row => (fixedColumns row, row.description, row.inventory)) =
          (rows.map fixedColumns).zip
            (rows.map (fun row => (row.description, row.inventory))) :=
    fun rows => List.zip_map'.symm
  have columns :
      classes.rows.map
          (fun row => (fixedColumns row, row.description, row.inventory)) =
        other.rows.map
          (fun row => (fixedColumns row, row.description, row.inventory)) := by
    rw [zipped, zipped, registered.columns, same.columns, registered.entries,
      same.entries]
  apply List.map_injective_iff.mpr _ columns
  rintro ⟨⟩ ⟨⟩ equal
  simp only [fixedColumns, Prod.mk.injEq] at equal
  simp only [ClassRow.mk.injEq]
  obtain ⟨⟨sameId, samePn, sameSn, sameWeight, sameLocation⟩,
    sameDescription, sameInventory⟩ := equal
  exact
    ⟨sameId, sameDescription, samePn, sameSn, sameWeight, sameLocation,
      sameInventory⟩

theorem Registered.rows_eq_iff
    {other : SerialTable ClassRow.id} {otherRegistry : Registry Bytes Int}
    (registered : Registered defaults classes registry)
    (otherRegistered : Registered defaults other otherRegistry) :
    classes.rows = other.rows ↔ registry = otherRegistry := by
  constructor
  · intro same
    rw [← registered.entries, ← otherRegistered.entries, same]
  · rintro rfl
    exact registered.rows_eq otherRegistered

theorem findClass_isNone_iff
    {db : Db} (registered : Registered defaults db.classes registry)
    (name : Bytes) : db.findClass name = none ↔ name ∉ registry.keys := by
  rw [registered.keys]
  constructor
  · exact Db.findClass_eq_none
  · intro missing
    cases found : db.findClass name with
    | none => rfl
    | some id =>
        obtain ⟨row, member, _, isName⟩ := Db.findClass_eq_some found
        rw [← isName] at missing
        exact absurd (List.mem_map_of_mem member) missing

theorem numberedColumns_succ (defaults : Defaults) (count : Nat) :
    numberedColumns defaults (count + 1) =
      numberedColumns defaults count ++
        [((count : Int) + 1, defaults.pn, defaults.sn, defaults.weight,
          defaults.location)] := by
  rw [numberedColumns, List.range_succ, List.map_append]
  rfl

theorem registered_ensureClass
    {server : Server} {db : Db}
    (registered : Registered server.defaults db.classes registry)
    (name : Bytes) :
    Registered server.defaults (ensureClass server db name).classes
      (registry.ensure server.defaults.inventory name) := by
  have missing := findClass_isNone_iff registered name
  have once :
      (registry.ensure server.defaults.inventory name).keys.Nodup :=
    Registry.nodup_enterAll server.defaults.inventory registered.once
      [(name, none)]
  simp only [ensureClass]
  cases found : db.findClass name with
  | some id =>
      have known : name ∈ registry.keys := by
        by_contra unknown
        rw [missing.mpr unknown] at found
        cases found
      rw [Registry.ensure, if_pos known]
      exact registered
  | none =>
      have unknown := missing.mp found
      rw [Registry.ensure, if_neg unknown] at once ⊢
      refine ⟨?_, ?_, ?_, once⟩
      · simp only [Db.insertClass, SerialTable.rows_insert, List.map_append,
          registered.entries, List.map_singleton]
      · rw [List.length_append, List.length_singleton,
          numberedColumns_succ, ← registered.columns, ← registered.next]
        simp only [Db.insertClass, SerialTable.rows_insert, List.map_append,
          List.map_singleton]
        rfl
      · rw [List.length_append, List.length_singleton]
        change db.classes.nextKey + 1 = _
        rw [registered.next]
        rfl

/-- A quantity that is set by the id is set by the description. -/
theorem registered_setInventory
    {db : Db} (registered : Registered defaults db.classes registry)
    {id : Int} {name : Bytes} (described : Described db id name)
    (quantity : Int) :
    Registered defaults (db.setInventory id quantity).classes
      (registry.assign name quantity) := by
  obtain ⟨row, member, isId, isName⟩ := described
  have sameRow :
      ∀ other ∈ db.classes.rows, other.id = id ↔ other.description = name := by
    intro other otherMember
    constructor
    · intro sameId
      rw [db.classes.identifies.eq_of_key_eq otherMember member
        (sameId.trans isId.symm), isName]
    · intro sameName
      rw [registered.descriptions.eq_of_key_eq otherMember member
        (sameName.trans isName.symm), isId]
  refine ⟨?_, ?_, ?_, ?_⟩
  · rw [Registry.assign, ← registered.entries]
    simp only [Db.setInventory, SerialTable.rows_update, List.map_map]
    apply List.map_congr_left
    intro other otherMember
    simp only [Function.comp]
    by_cases selected : other.description = name
    · rw [if_pos selected, if_pos ((sameRow other otherMember).mpr selected)]
    · rw [if_neg selected,
        if_neg (fun sameId => selected ((sameRow other otherMember).mp sameId))]
  · rw [Registry.assign, List.length_map, ← registered.columns]
    simp only [Db.setInventory, SerialTable.rows_update, List.map_map]
    rfl
  · rw [Registry.assign, List.length_map]
    exact registered.next
  · rw [Registry.keys_assign]
    exact registered.once

theorem registered_enterClass
    {server : Server} {db : Db}
    (registered : Registered server.defaults db.classes registry)
    (entry : Bytes × Option Int) :
    Registered server.defaults (enterClass server db entry).classes
      (registry.enter server.defaults.inventory entry) := by
  have ensured := registered_ensureClass registered entry.1
  simp only [enterClass, Registry.enter]
  cases entry.2 with
  | none => exact ensured
  | some quantity =>
      exact
        registered_setInventory ensured
          (classEnsured server db entry.1).resolved quantity

end

/-- The entries that the lines of a script make, from the given section on. -/
def scriptEntries : Option Mode → List Bytes → List (Bytes × Option Int)
  | _, [] => []
  | mode, line :: rest =>
      (lineEntry mode line).toList ++ scriptEntries (nextMode mode line) rest

theorem scriptEntries_append
    (mode : Option Mode) (first second : List Bytes) :
    scriptEntries mode (first ++ second) =
      scriptEntries mode first ++
        scriptEntries (first.foldl nextMode mode) second := by
  induction first generalizing mode with
  | nil =>
      rfl
  | cons line rest inductionHypothesis =>
      simp only [List.cons_append, scriptEntries, List.foldl_cons,
        List.append_assoc, inductionHypothesis]

/-- The lines of a script enter their entries, one after the other. -/
theorem registered_run
    {server : Server} {current : LoopState × Db}
    {registry : Registry Bytes Int}
    (registered : Registered server.defaults current.2.classes registry)
    (lines : List Bytes) :
    Registered server.defaults
      (runActions (lineStep server) current lines).2.classes
      (registry.enterAll server.defaults.inventory
        (scriptEntries current.1.mode lines)) := by
  induction lines generalizing current registry with
  | nil =>
      exact registered
  | cons line rest inductionHypothesis =>
      have classes := classes_lineStore server current.2 current.1 line
      have mode :
          (lineStep server current line).1.mode =
            nextMode current.1.mode line :=
        mode_lineState current.2 current.1 line
      have after :
          Registered server.defaults (lineStep server current line).2.classes
            (registry.enterAll server.defaults.inventory
              (lineEntry current.1.mode line).toList) := by
        change Registered _ (lineStore _ _ _ _).classes _
        rw [classes]
        cases lineEntry current.1.mode line with
        | none => exact registered
        | some entry => exact registered_enterClass registered entry
      have later := inductionHypothesis after
      rw [mode] at later
      rw [runActions_cons, scriptEntries, Registry.enterAll, List.foldl_append]
      exact later

/-! ## Stores beside the classes -/

/-- The groups differ at most in the ids of their classes, which have the same
description. -/
def SameItem (first second : Db) (left right : GroupRow) : Prop :=
  { left with classId := right.classId } = right ∧
    ∃ description,
      Described first left.classId description ∧
        Described second right.classId description

/-- The stores have the same contents beside their classes. -/
structure Corresponding (first second : Db) : Prop where
  tags : first.tags = second.tags
  orders : first.orders = second.orders
  kits : first.kits = second.kits
  users : first.users = second.users
  groups : List.Forall₂ (SameItem first second) first.groups second.groups

/-- Ids and descriptions are kept. -/
def KeepsDescriptions (before after : Db) : Prop :=
  ∀ id description, Described before id description →
    Described after id description

section

variable {first second firstAfter secondAfter : Db}

theorem SameItem.keep
    {left right : GroupRow} (same : SameItem first second left right)
    (keepsFirst : KeepsDescriptions first firstAfter)
    (keepsSecond : KeepsDescriptions second secondAfter) :
    SameItem firstAfter secondAfter left right := by
  obtain ⟨equal, description, describedFirst, describedSecond⟩ := same
  exact
    ⟨equal, description, keepsFirst _ _ describedFirst,
      keepsSecond _ _ describedSecond⟩

theorem Corresponding.keep_groups
    (corresponding : Corresponding first second)
    (keepsFirst : KeepsDescriptions first firstAfter)
    (keepsSecond : KeepsDescriptions second secondAfter) :
    List.Forall₂ (SameItem firstAfter secondAfter) first.groups
      second.groups :=
  corresponding.groups.imp
    (fun _ _ same => same.keep keepsFirst keepsSecond)

/-- Every group of a consistent store has a description. -/
theorem corresponding_refl {db : Db} (consistent : db.Consistent) :
    Corresponding db db := by
  refine ⟨rfl, rfl, rfl, rfl, List.forall₂_same.mpr ?_⟩
  intro group member
  obtain ⟨row, rowMember, isClass⟩ := consistent.classes group member
  have described : Described db group.classId row.description :=
    ⟨row, rowMember, isClass, rfl⟩
  exact ⟨rfl, row.description, described, described⟩

/-- With equal classes, corresponding stores have equal groups. -/
theorem Corresponding.groups_eq
    (corresponding : Corresponding first second)
    (consistent : second.Consistent)
    (classes : first.classes.rows = second.classes.rows) :
    first.groups = second.groups := by
  have equal :
      ∀ left right, SameItem first second left right → left = right := by
    rintro left right ⟨beside, description, ⟨row, member, isLeft, isName⟩,
      other, otherMember, isRight, isOther⟩
    rw [classes] at member
    have sameRow : row = other :=
      (described_eq_iff consistent member otherMember).mpr
        (isName.trans isOther.symm)
    rw [← beside, ← isRight, ← sameRow, isLeft]
  rw [← List.forall₂_eq_eq_eq]
  exact corresponding.groups.imp equal

theorem Corresponding.of_tables
    (corresponding : Corresponding first second)
    (keepsFirst : KeepsDescriptions first firstAfter)
    (keepsSecond : KeepsDescriptions second secondAfter)
    (tags : firstAfter.tags = secondAfter.tags)
    (orders : firstAfter.orders = secondAfter.orders)
    (kits : firstAfter.kits = secondAfter.kits)
    (users : firstAfter.users = secondAfter.users)
    (groupsFirst : firstAfter.groups = first.groups)
    (groupsSecond : secondAfter.groups = second.groups) :
    Corresponding firstAfter secondAfter := by
  refine ⟨tags, orders, kits, users, ?_⟩
  rw [groupsFirst, groupsSecond]
  exact corresponding.keep_groups keepsFirst keepsSecond

/-! ## One line, in both stores -/

theorem keepsDescriptions_of_classes {before after : Db}
    (same : after.classes = before.classes) :
    KeepsDescriptions before after :=
  fun _ _ described => described.of_classes same

theorem keepsDescriptions_ensureClass
    (server : Server) (db : Db) (name : Bytes) :
    KeepsDescriptions db (ensureClass server db name) :=
  fun _ _ described => described.enterClass server (name, none)

theorem Corresponding.ensureClass
    (corresponding : Corresponding first second) (server : Server)
    (name : Bytes) :
    Corresponding (Operations.ensureClass server first name)
      (Operations.ensureClass server second name) := by
  have ensuredFirst := classEnsured server first name
  have ensuredSecond := classEnsured server second name
  apply corresponding.of_tables
  · exact keepsDescriptions_ensureClass server first name
  · exact keepsDescriptions_ensureClass server second name
  · rw [tags_ensureClass, tags_ensureClass, corresponding.tags]
  · rw [ensuredFirst.orders, ensuredSecond.orders, corresponding.orders]
  · rw [ensuredFirst.kits, ensuredSecond.kits, corresponding.kits]
  · rw [users_ensureClass, users_ensureClass, corresponding.users]
  · exact ensuredFirst.groups
  · exact ensuredSecond.groups

theorem Corresponding.setInventory
    (corresponding : Corresponding first second)
    (firstId secondId quantity : Int) :
    Corresponding (first.setInventory firstId quantity)
      (second.setInventory secondId quantity) :=
  corresponding.of_tables
    (fun _ _ described => described.setInventory firstId quantity)
    (fun _ _ described => described.setInventory secondId quantity)
    corresponding.tags corresponding.orders corresponding.kits
    corresponding.users rfl rfl

theorem Corresponding.insertTag
    (corresponding : Corresponding first second) (encoding : Encoding)
    (tag : Bytes) :
    Corresponding (first.insertTag encoding tag)
      (second.insertTag encoding tag) := by
  simp only [Db.insertTag, corresponding.tags]
  split
  · exact
      corresponding.of_tables (keepsDescriptions_of_classes rfl)
        (keepsDescriptions_of_classes rfl) rfl corresponding.orders
        corresponding.kits corresponding.users rfl rfl
  · exact corresponding

theorem Corresponding.ensureItemTag
    (corresponding : Corresponding first second) (server : Server)
    (tag : Bytes) :
    Corresponding (Operations.ensureItemTag server first tag)
      (Operations.ensureItemTag server second tag) := by
  simp only [Operations.ensureItemTag]
  split
  · exact corresponding
  · exact corresponding.insertTag server.encoding (pgvalue tag)

theorem Corresponding.insertUser
    (corresponding : Corresponding first second) (server : Server)
    (username : Bytes) (password : Option Bytes) :
    Corresponding (first.insertUser server username password)
      (second.insertUser server username password) := by
  simp only [Db.insertUser, corresponding.users]
  split
  · exact
      corresponding.of_tables (keepsDescriptions_of_classes rfl)
        (keepsDescriptions_of_classes rfl) corresponding.tags
        corresponding.orders corresponding.kits rfl rfl rfl
  · exact corresponding

theorem Corresponding.headerStore
    (corresponding : Corresponding first second) (server : Server)
    (orderId : Option Int) (mode : Option Mode) :
    Corresponding (Operations.headerStore server first orderId mode)
      (Operations.headerStore server second orderId mode) := by
  simp only [Operations.headerStore]
  split
  · exact
      corresponding.of_tables (keepsDescriptions_of_classes rfl)
        (keepsDescriptions_of_classes rfl) corresponding.tags
        (by simp only [Db.insertOrder, corresponding.orders])
        corresponding.kits corresponding.users rfl rfl
  · split
    · split
      · exact
          corresponding.of_tables (keepsDescriptions_of_classes rfl)
            (keepsDescriptions_of_classes rfl) corresponding.tags
            (by simp only [Db.insertKit, corresponding.orders])
            (by simp only [Db.insertKit, corresponding.orders,
              corresponding.kits])
            corresponding.users rfl rfl
      · exact corresponding
    · exact corresponding

/-- The inserted groups differ in their classes at most. -/
theorem Corresponding.insertGroup
    (corresponding : Corresponding first second) (encoding : Encoding)
    (orderId kitId : Option Int) {left right : NewGroup}
    (beside : { left with classId := right.classId } = right)
    {description : Bytes}
    (describedLeft : Described first left.classId description)
    (describedRight : Described second right.classId description) :
    Corresponding (first.insertGroup encoding orderId kitId left)
      (second.insertGroup encoding orderId kitId right) := by
  have sameTag : left.tag = right.tag := by
    rw [← beside]
  simp only [Db.insertGroup, corresponding.kits, sameTag]
  split
  · split
    · refine
        ⟨corresponding.tags, corresponding.orders, rfl, corresponding.users,
          ?_⟩
      apply List.rel_append
      · exact
          corresponding.keep_groups (keepsDescriptions_of_classes rfl)
            (keepsDescriptions_of_classes rfl)
      · rw [List.forall₂_map_left_iff, List.forall₂_map_right_iff,
          List.forall₂_same]
        intro kit _
        refine ⟨?_, description, describedLeft, describedRight⟩
        rw [← beside]
    · exact corresponding
  · exact corresponding

theorem Corresponding.loadInventory
    (corresponding : Corresponding first second) (server : Server)
    (fields : InventoryFields) :
    Corresponding (Operations.loadInventory server first fields)
      (Operations.loadInventory server second fields) :=
  (corresponding.ensureClass server (leadingName fields.name)).setInventory
    _ _ _

theorem Corresponding.loadItem
    (corresponding : Corresponding first second) (server : Server)
    (orderId kitId : Option Int) (fields : ItemFields) :
    Corresponding (Operations.loadItem server first orderId kitId fields)
      (Operations.loadItem server second orderId kitId fields) := by
  have tagged :=
    (corresponding.ensureClass server
      (leadingName fields.className)).ensureItemTag server fields.tag
  have described :
      ∀ db : Db,
        Described
          (Operations.ensureItemTag server
            (Operations.ensureClass server db (leadingName fields.className))
            fields.tag)
          (itemGroup db fields).classId (leadingName fields.className) := by
    intro db
    have resolved :
        Described
          (Operations.ensureClass server db (leadingName fields.className))
          (resolveClass db (leadingName fields.className))
          (leadingName fields.className) :=
      (classEnsured server db (leadingName fields.className)).resolved
    exact resolved.of_classes (tables_ensureItemTag server _ _).2.2.2
  exact
    tagged.insertGroup server.encoding orderId kitId rfl (described first)
      (described second)

theorem Corresponding.contentStore
    (corresponding : Corresponding first second) (server : Server)
    (state : LoopState) (line : Bytes) :
    Corresponding (Operations.contentStore server first state line)
      (Operations.contentStore server second state line) := by
  simp only [Operations.contentStore]
  rcases state.mode with _ | mode
  · cases inventoryFields line with
    | none => exact corresponding
    | some fields => exact corresponding.loadInventory server fields
  · cases mode with
    | inventory =>
        cases inventoryFields line with
        | none => exact corresponding
        | some fields => exact corresponding.loadInventory server fields
    | tags => exact corresponding.insertTag server.encoding _
    | order => exact corresponding
    | kit => exact corresponding
    | items =>
        cases itemFields line with
        | none => exact corresponding
        | some fields => exact corresponding.loadItem server _ _ fields
    | users => exact corresponding.insertUser server _ _

/-- A line keeps the stores corresponding. -/
theorem Corresponding.lineStore
    (corresponding : Corresponding first second) (server : Server)
    (state : LoopState) (line : Bytes) :
    Corresponding (Operations.lineStore server first state line)
      (Operations.lineStore server second state line) := by
  simp only [Operations.lineStore]
  split
  · exact corresponding
  · split
    · cases sectionHeader line with
      | none => exact corresponding
      | some name => exact corresponding.headerStore server _ _
    · exact corresponding.contentStore server state line

theorem lineState_orders
    (orders : first.orders = second.orders) (state : LoopState)
    (line : Bytes) :
    lineState first state line = lineState second state line := by
  simp only [lineState, headerState, orders]

/-- So do all the lines that follow. -/
theorem Corresponding.run
    (corresponding : Corresponding first second) (server : Server)
    {state other : LoopState} (alike : state.Alike other)
    (lines : List Bytes) :
    Corresponding (runActions (lineStep server) (state, first) lines).2
      (runActions (lineStep server) (other, second) lines).2 := by
  induction lines generalizing first second state other with
  | nil =>
      exact corresponding
  | cons line rest inductionHypothesis =>
      have next := corresponding.lineStore server state line
      rw [@lineStore_alike server second _ _ alike] at next
      have later :
          (lineState first state line).Alike (lineState second other line) := by
        rw [lineState_orders corresponding.orders]
        exact lineState_alike alike line
      exact inductionHypothesis next later

end

/-! ## Headers and the lines of an unknown section -/

/-- The line is the header of one of the six sections. -/
def knownHeader (line : Bytes) : Bool :=
  ((sectionHeader line).bind searchMode).isSome

theorem header_of_sectionHeader {line name : Bytes}
    (named : sectionHeader line = some name) :
    isComment line = false ∧ isHeader line = true := by
  cases line with
  | nil =>
      cases named
  | cons first rest =>
      simp only [sectionHeader] at named
      split at named
      next bracket =>
        simp [isComment, isHeader, bracket.1]
      next =>
        cases named

theorem lineStore_of_header {line name : Bytes}
    (named : sectionHeader line = some name) (server : Server) (db : Db)
    (state : LoopState) :
    lineStore server db state line =
      headerStore server db state.orderId (searchMode name) := by
  obtain ⟨notComment, header⟩ := header_of_sectionHeader named
  simp only [lineStore, notComment, header, named, Bool.false_eq_true,
    if_false, if_true]

theorem lineState_of_header {line name : Bytes}
    (named : sectionHeader line = some name) (db : Db) (state : LoopState) :
    lineState db state line = headerState db state (searchMode name) := by
  obtain ⟨notComment, header⟩ := header_of_sectionHeader named
  simp only [lineState, notComment, header, named, Bool.false_eq_true,
    if_false, if_true]

theorem nextMode_of_header {line name : Bytes}
    (named : sectionHeader line = some name) (mode : Option Mode) :
    nextMode mode line = searchMode name := by
  obtain ⟨notComment, header⟩ := header_of_sectionHeader named
  simp only [nextMode, notComment, header, named, Bool.false_eq_true,
    if_false, if_true]

theorem lineEntry_of_header {line name : Bytes}
    (named : sectionHeader line = some name) (mode : Option Mode) :
    lineEntry mode line = none := by
  obtain ⟨_, header⟩ := header_of_sectionHeader named
  simp only [lineEntry, lineMaterial, header, Bool.or_true, if_true]
  rfl

theorem exists_of_knownHeader {line : Bytes}
    (known : knownHeader line = true) :
    ∃ name mode, sectionHeader line = some name ∧
      searchMode name = some mode := by
  obtain ⟨mode, found⟩ := Option.isSome_iff_exists.mp known
  obtain ⟨name, named, isMode⟩ := Option.bind_eq_some_iff.mp found
  exact ⟨name, mode, named, isMode⟩

theorem searchMode_of_not_knownHeader {line name : Bytes}
    (unknown : knownHeader line = false)
    (named : sectionHeader line = some name) : searchMode name = none := by
  rw [knownHeader, named, Option.bind_some] at unknown
  simpa using unknown

/-- The order and the kit are the same. -/
def SameKit (first second : LoopState) : Prop :=
  first.orderId = second.orderId ∧ first.kitId = second.kitId

/-- A header of an unknown section changes nothing but the mode. -/
theorem unknown_header
    {line name : Bytes} (named : sectionHeader line = some name)
    (unknown : searchMode name = none) (server : Server) (db : Db)
    (state : LoopState) :
    lineStore server db state line = db ∧
      lineState db state line = { state with mode := none } := by
  rw [lineStore_of_header named, lineState_of_header named, unknown]
  exact ⟨rfl, rfl⟩

theorem Corresponding.loadInventory_first
    {first second : Db} (corresponding : Corresponding first second)
    (server : Server) (fields : InventoryFields) :
    Corresponding (Operations.loadInventory server first fields) second := by
  have ensured := classEnsured server first (leadingName fields.name)
  apply corresponding.of_tables
  · intro id description described
    exact
      (described.enterClass server
        (leadingName fields.name, some (intval fields.quantity)))
  · exact fun _ _ described => described
  · exact (tags_ensureClass server first _).trans corresponding.tags
  · exact ensured.orders.trans corresponding.orders
  · exact ensured.kits.trans corresponding.kits
  · exact (users_ensureClass server first _).trans corresponding.users
  · exact ensured.groups
  · rfl

/-- In an unknown section, a line keeps the mode, the order and the kit, and
of the store everything but the classes. -/
theorem unknown_line
    {first second : Db} (corresponding : Corresponding first second)
    (server : Server) {state : LoopState} (inside : state.mode = none)
    {line : Bytes} (unknown : knownHeader line = false) :
    Corresponding (lineStore server first state line) second ∧
      (lineState first state line).mode = none ∧
        SameKit (lineState first state line) state := by
  cases named : sectionHeader line with
  | some name =>
      obtain ⟨sameStore, sameState⟩ :=
        unknown_header named (searchMode_of_not_knownHeader unknown named)
          server first state
      rw [sameStore, sameState]
      exact ⟨corresponding, rfl, rfl, rfl⟩
  | none =>
      have sameState :
          (lineState first state line).mode = state.mode ∧
            SameKit (lineState first state line) state := by
        simp only [lineState, named]
        split
        · exact ⟨rfl, rfl, rfl⟩
        · split <;> exact ⟨rfl, rfl, rfl⟩
      rw [sameState.1]
      refine ⟨?_, inside, sameState.2⟩
      simp only [lineStore, named]
      split
      · exact corresponding
      · split
        · exact corresponding
        · simp only [contentStore, inside]
          cases inventoryFields line with
          | none => exact corresponding
          | some fields => exact corresponding.loadInventory_first server fields

theorem unknown_lines
    {first second : Db} (corresponding : Corresponding first second)
    (server : Server) {state : LoopState} (inside : state.mode = none)
    {lines : List Bytes} (unknown : ∀ line ∈ lines, knownHeader line = false) :
    Corresponding (runActions (lineStep server) (state, first) lines).2
        second ∧
      SameKit (runActions (lineStep server) (state, first) lines).1 state := by
  induction lines generalizing first state with
  | nil =>
      exact ⟨corresponding, rfl, rfl⟩
  | cons line rest inductionHypothesis =>
      obtain ⟨next, stays, sameKit⟩ :=
        unknown_line corresponding server inside
          (unknown line (List.mem_cons_self ..))
      obtain ⟨later, laterKit⟩ :=
        inductionHypothesis next stays
          (fun other member => unknown other (List.mem_cons_of_mem _ member))
      exact
        ⟨later, laterKit.1.trans sameKit.1, laterKit.2.trans sameKit.2⟩

/-- A header reads the order and the kit only. -/
theorem lineState_of_known_header
    {line : Bytes} (known : knownHeader line = true) (db : Db)
    {state other : LoopState} (sameKit : SameKit state other) :
    (lineState db state line).Alike (lineState db other line) := by
  obtain ⟨name, mode, named, _⟩ := exists_of_knownHeader known
  rw [lineState_of_header named, lineState_of_header named]
  simp only [headerState, sameKit.1]
  split
  · exact ⟨rfl, rfl, rfl⟩
  · split
    · split
      · exact ⟨rfl, rfl, rfl⟩
      · exact ⟨rfl, rfl, sameKit.2⟩
    · exact ⟨rfl, rfl, sameKit.2⟩

/-- Lines that begin with a known header keep the stores corresponding,
whatever the mode was before. -/
theorem Corresponding.run_of_header
    {first second : Db} (corresponding : Corresponding first second)
    (server : Server) {state other : LoopState} (sameKit : SameKit state other)
    {lines : List Bytes}
    (begins : ∀ line ∈ lines.head?, knownHeader line = true) :
    Corresponding (runActions (lineStep server) (state, first) lines).2
      (runActions (lineStep server) (other, second) lines).2 := by
  cases lines with
  | nil =>
      exact corresponding
  | cons line rest =>
      have known := begins line rfl
      obtain ⟨name, mode, named, _⟩ := exists_of_knownHeader known
      have next :
          Corresponding (Operations.lineStore server first state line)
            (Operations.lineStore server second other line) := by
        rw [lineStore_of_header named, lineStore_of_header named, sameKit.1]
        exact corresponding.headerStore server _ _
      have alike :
          (lineState first state line).Alike
            (lineState second other line) := by
        rw [lineState_orders corresponding.orders]
        exact lineState_of_known_header known second sameKit
      exact next.run server alike rest

/-! ## The entries of a script with an unknown section -/

theorem nextMode_unknown {line : Bytes} (unknown : knownHeader line = false) :
    nextMode none line = none := by
  cases named : sectionHeader line with
  | some name =>
      rw [nextMode_of_header named]
      exact searchMode_of_not_knownHeader unknown named
  | none =>
      simp only [nextMode, named]
      split
      · rfl
      · split <;> rfl

theorem foldl_nextMode_unknown {lines : List Bytes}
    (unknown : ∀ line ∈ lines, knownHeader line = false) :
    lines.foldl nextMode none = none := by
  induction lines with
  | nil =>
      rfl
  | cons line rest inductionHypothesis =>
      rw [List.foldl_cons,
        nextMode_unknown (unknown line (List.mem_cons_self ..))]
      exact
        inductionHypothesis
          (fun other member => unknown other (List.mem_cons_of_mem _ member))

theorem scriptEntries_of_header {lines : List Bytes}
    (begins : ∀ line ∈ lines.head?, knownHeader line = true)
    (mode : Option Mode) : scriptEntries mode lines = scriptEntries none lines := by
  cases lines with
  | nil =>
      rfl
  | cons line rest =>
      obtain ⟨name, _, named, _⟩ := exists_of_knownHeader (begins line rfl)
      simp only [scriptEntries, lineEntry_of_header named,
        nextMode_of_header named]

theorem scriptEntries_section
    {before body rest : List Bytes} {header name : Bytes}
    (named : sectionHeader header = some name)
    (unknown : searchMode name = none)
    (inert : ∀ line ∈ body, knownHeader line = false) :
    scriptEntries (some .inventory) (before ++ header :: (body ++ rest)) =
      scriptEntries (some .inventory) before ++
        (scriptEntries none body ++ scriptEntries none rest) := by
  rw [scriptEntries_append, scriptEntries, lineEntry_of_header named,
    nextMode_of_header named, unknown, scriptEntries_append,
    foldl_nextMode_unknown inert]
  rfl

/-! ## Contents -/

/-- The six tables have the same rows. -/
structure SameContents (first second : Db) : Prop where
  classes : first.classes.rows = second.classes.rows
  tags : first.tags = second.tags
  orders : first.orders.rows = second.orders.rows
  kits : first.kits = second.kits
  groups : first.groups = second.groups
  users : first.users.rows = second.users.rows

theorem Corresponding.sameContents_iff
    {first second : Db} (corresponding : Corresponding first second)
    (consistent : second.Consistent) :
    SameContents first second ↔ first.classes.rows = second.classes.rows := by
  constructor
  · exact SameContents.classes
  · intro classes
    exact
      ⟨classes, corresponding.tags,
        congrArg SerialTable.rows corresponding.orders, corresponding.kits,
        corresponding.groups_eq consistent classes,
        congrArg SerialTable.rows corresponding.users⟩

theorem loadedStore_joined
    (server : Server) (messages : List Message) (db : Db)
    {lines : List Bytes} (clean : ∀ line ∈ lines, 10 ∉ line) :
    loadedStore server messages db (joinedText [10] lines) =
      (runActions (lineStep server) (LoopState.start messages, db.truncate)
        lines).2 := by
  rw [← loadedStore_feeds server messages db clean, loadedStore_eq,
    explode_terminated clean, run_blank]

/-- The classes and quantities that a script leaves. -/
def scriptRegistry (defaults : Defaults) (lines : List Bytes) :
    Registry Bytes Int :=
  Registry.enterAll defaults.inventory [] (scriptEntries (some .inventory) lines)

theorem registered_loadedStore
    (server : Server) (messages : List Message) (db : Db)
    {lines : List Bytes} (clean : ∀ line ∈ lines, 10 ∉ line) :
    Registered server.defaults
      (loadedStore server messages db (joinedText [10] lines)).classes
      (scriptRegistry server.defaults lines) := by
  rw [loadedStore_joined server messages db clean]
  exact
    @registered_run server (LoopState.start messages, db.truncate) []
      (registered_empty server.defaults) lines

/-- The stores with and without an unknown section agree beside the
classes. -/
theorem corresponding_without_section
    (server : Server) (messages : List Message) (db : Db)
    {before body rest : List Bytes} {header name : Bytes}
    (named : sectionHeader header = some name)
    (unknown : searchMode name = none)
    (inert : ∀ line ∈ body, knownHeader line = false)
    (begins : ∀ line ∈ rest.head?, knownHeader line = true) :
    Corresponding
      (runActions (lineStep server) (LoopState.start messages, db.truncate)
        (before ++ header :: (body ++ rest))).2
      (runActions (lineStep server) (LoopState.start messages, db.truncate)
        (before ++ rest)).2 := by
  have consistent :=
    (@lines_consistent server db.truncate (Db.consistent_empty db.users)
      (LoopState.start messages) before).1
  rw [runActions_append, runActions_append, runActions_cons,
    runActions_append]
  generalize
    runActions (lineStep server) (LoopState.start messages, db.truncate)
      before = current at consistent ⊢
  obtain ⟨sameStore, sameState⟩ :=
    unknown_header named unknown server current.2 current.1
  have entered :
      lineStep server current header =
        ({ current.1 with mode := none }, current.2) := by
    rw [lineStep, sameStore, sameState]
  obtain ⟨after, sameKit⟩ :=
    @unknown_lines current.2 current.2 (corresponding_refl consistent) server
      { current.1 with mode := none } rfl body inert
  have fromBefore :
      SameKit
        (runActions (lineStep server)
          ({ current.1 with mode := none }, current.2) body).1
        current.1 :=
    sameKit
  rw [entered]
  exact after.run_of_header server fromBefore begins

/-- Removing an unknown section changes no contents exactly if the classes that
its lines would create are the first ones that the lines behind it create, in
that order, and each quantity that it sets is set again behind it or was in
force before it. -/
theorem unknown_section_inert_iff
    (server : Server) (messages : List Message) (db : Db)
    (before body rest : List Bytes) (header name : Bytes)
    (clean : ∀ line ∈ before ++ header :: (body ++ rest), 10 ∉ line)
    (named : sectionHeader header = some name)
    (unknown : searchMode name = none)
    (inert : ∀ line ∈ body, knownHeader line = false)
    (begins : ∀ line ∈ rest.head?, knownHeader line = true) :
    SameContents
        (loadedStore server messages db
          (joinedText [10] (before ++ header :: (body ++ rest))))
        (loadedStore server messages db (joinedText [10] (before ++ rest))) ↔
      newKeys (scriptRegistry server.defaults before).keys
            ((scriptEntries none body).map Prod.fst) <+:
          newKeys (scriptRegistry server.defaults before).keys
            ((scriptEntries none rest).map Prod.fst) ∧
        ∀ description quantity,
          lastSet description (scriptEntries none body) = some quantity →
            lastSet description (scriptEntries none rest) = none →
              (scriptRegistry server.defaults before).value
                server.defaults.inventory description = quantity := by
  have cleanWithout : ∀ line ∈ before ++ rest, 10 ∉ line := by
    intro line member
    apply clean line
    rcases List.mem_append.mp member with first | last
    · exact List.mem_append_left _ first
    · exact
        List.mem_append_right _
          (List.mem_cons_of_mem _ (List.mem_append_right _ last))
  have corresponding :
      Corresponding
        (loadedStore server messages db
          (joinedText [10] (before ++ header :: (body ++ rest))))
        (loadedStore server messages db (joinedText [10] (before ++ rest))) := by
    rw [loadedStore_joined server messages db clean,
      loadedStore_joined server messages db cleanWithout]
    exact
      corresponding_without_section server messages db named unknown inert
        begins
  have registry :
      scriptRegistry server.defaults (before ++ header :: (body ++ rest)) =
        (scriptRegistry server.defaults before).enterAll
          server.defaults.inventory
          (scriptEntries none body ++ scriptEntries none rest) := by
    rw [scriptRegistry, scriptEntries_section named unknown inert]
    exact List.foldl_append
  have registryWithout :
      scriptRegistry server.defaults (before ++ rest) =
        (scriptRegistry server.defaults before).enterAll
          server.defaults.inventory (scriptEntries none rest) := by
    rw [scriptRegistry, scriptEntries_append, scriptEntries_of_header begins]
    exact List.foldl_append
  have once : (scriptRegistry server.defaults before).keys.Nodup :=
    @Registry.nodup_enterAll Bytes Int _ server.defaults.inventory []
      List.nodup_nil _
  rw [corresponding.sameContents_iff (loadedStore_consistent server messages
      db _),
    Registered.rows_eq_iff (registered_loadedStore server messages db clean)
      (registered_loadedStore server messages db cleanWithout),
    registry, registryWithout]
  exact Registry.enterAll_append_eq_iff server.defaults.inventory once _ _

/-- A section of remarks about a material whose quantity is set behind it. -/
theorem unknown_section_inert_iff_remarks :
    SameContents
      (loadedStore Server.plain [] Db.empty
        (joinedText [10]
          ([bytes "Bolt,5"] ++
            bytes "[REMARKS]" :: ([bytes "Nut,2"] ++
              [bytes "[INVENTORY]", bytes "Nut,7"]))))
      (loadedStore Server.plain [] Db.empty
        (joinedText [10]
          ([bytes "Bolt,5"] ++ [bytes "[INVENTORY]", bytes "Nut,7"]))) := by
  have remarks :
      scriptEntries none [bytes "Nut,2"] = [(bytes "Nut", some 2)] := by
    decide
  have behind :
      scriptEntries none [bytes "[INVENTORY]", bytes "Nut,7"] =
        [(bytes "Nut", some 7)] := by
    decide
  apply (unknown_section_inert_iff Server.plain [] Db.empty [bytes "Bolt,5"]
    [bytes "Nut,2"] [bytes "[INVENTORY]", bytes "Nut,7"] (bytes "[REMARKS]")
    (bytes "REMARKS") (by decide) (by decide) (by decide) (by decide)
    (by decide)).mpr
  rw [remarks, behind]
  refine ⟨List.prefix_rfl, ?_⟩
  intro description quantity isSet notBehind
  -- The section sets only the material that is set again.
  have isNut : bytes "Nut" = description := by
    by_contra other
    simp [lastSet, other] at isSet
  simp [lastSet, isNut] at notBehind

/-- A line of an unknown section creates a class. -/
theorem unknown_section_creates_class :
    sectionHeader (bytes "[FOO]") = some (bytes "FOO") ∧
      searchMode (bytes "FOO") = none ∧
      knownHeader (bytes "Bolt,5") = false ∧
      ¬ SameContents
        (loadedStore Server.plain [] Db.empty
          (joinedText [10] ([] ++ bytes "[FOO]" :: ([bytes "Bolt,5"] ++ []))))
        (loadedStore Server.plain [] Db.empty (joinedText [10] ([] ++ []))) := by
  refine ⟨by decide, by decide, by decide, ?_⟩
  intro same
  have rows := same.classes
  revert rows
  decide +kernel

end LtlsKitting.Operations
