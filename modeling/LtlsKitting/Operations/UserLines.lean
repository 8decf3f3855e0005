import LtlsKitting.Operations.Newlines

/-!
# The users of a script

Only the lines of the users change the table of the users.  Each of them adds
a row, unless the database refuses its texts: the first field, and the digest
of the second one, each up to its first zero byte.  The second field ends in
the carriage return of the line if it is the last field.
-/

namespace LtlsKitting.Operations

open LtlsKitting.Php LtlsKitting.Store LtlsKitting.Interaction
open LtlsKitting.Relational

/-- The line stands for a user. -/
def userLine (mode : Option Mode) (line : Bytes) : Bool :=
  !isComment line && !isHeader line && mode == some .users

/-- The first field of a line, as it is stored. -/
def lineName (line : Bytes) : Bytes :=
  pgvalue ((explode 44 line).headD [])

/-- The second field of a line, as it is digested. -/
def linePassword (line : Bytes) : Option Bytes :=
  (explode 44 line)[1]?.map pgvalue

/-- The name and the password of a user that the database accepts. -/
def acceptedUser
    (server : Server) (name : Bytes) (password : Option Bytes) :
    List (Bytes × Option Bytes) :=
  if server.encoding.valid name ∧ password.all server.encoding.valid then
    [(name, password)]
  else
    []

theorem acceptedUser_of_valid {server : Server} {name password : Bytes}
    (validName : server.encoding.valid name = true)
    (validPassword : server.encoding.valid password = true) :
    acceptedUser server name (some password) = [(name, some password)] := by
  rw [acceptedUser, if_pos ⟨validName, by simpa using validPassword⟩]

/-- The names and the passwords of the users that the lines add. -/
def addedUsers (server : Server) :
    Option Mode → List Bytes → List (Bytes × Option Bytes)
  | _, [] => []
  | mode, line :: rest =>
      (if userLine mode line then
          acceptedUser server (lineName line) (linePassword line)
        else
          []) ++
        addedUsers server (nextMode mode line) rest

/-- The passwords of the users that the lines add. -/
def storedPasswords
    (server : Server) (mode : Option Mode) (lines : List Bytes) :
    List Bytes :=
  (addedUsers server mode lines).filterMap Prod.snd

/-! ## Other lines -/

section

variable (server : Server) (db : Db)

theorem users_ensureClass (description : Bytes) :
    (ensureClass server db description).users = db.users := by
  simp only [ensureClass]
  split <;> rfl

theorem users_insertTag (tag : Bytes) :
    (db.insertTag server.encoding tag).users = db.users := by
  simp only [Db.insertTag]
  split <;> rfl

theorem users_insertGroup (orderId kitId : Option Int) (new : NewGroup) :
    (db.insertGroup server.encoding orderId kitId new).users = db.users := by
  simp only [Db.insertGroup]
  split
  · split <;> rfl
  · rfl

theorem users_ensureItemTag (tag : Bytes) :
    (ensureItemTag server db tag).users = db.users := by
  simp only [ensureItemTag]
  split
  · rfl
  · exact users_insertTag server db (pgvalue tag)

theorem users_loadItem (orderId kitId : Option Int) (fields : ItemFields) :
    (loadItem server db orderId kitId fields).users = db.users := by
  rw [loadItem, users_insertGroup, users_ensureItemTag, users_ensureClass]

theorem users_loadInventory (fields : InventoryFields) :
    (loadInventory server db fields).users = db.users :=
  users_ensureClass server db (leadingName fields.name)

theorem users_headerStore (orderId : Option Int) (mode : Option Mode) :
    (headerStore server db orderId mode).users = db.users := by
  simp only [headerStore]
  split
  · rfl
  · split
    · split <;> rfl
    · rfl

theorem users_contentStore (state : LoopState) (line : Bytes) :
    (contentStore server db state line).users =
      if state.mode == some .users then
        (db.insertUser server (lineName line) (linePassword line)).users
      else
        db.users := by
  have inventory :
      (contentStore server db { state with mode := some .inventory }
        line).users = db.users := by
    simp only [contentStore]
    cases inventoryFields line with
    | none => rfl
    | some fields => exact users_loadInventory server db fields
  have items :
      (contentStore server db { state with mode := some .items }
        line).users = db.users := by
    simp only [contentStore]
    cases itemFields line with
    | none => rfl
    | some fields => exact users_loadItem server db _ _ fields
  simp only [contentStore]
  rcases state.mode with _ | mode
  · exact inventory
  · cases mode with
    | inventory => exact inventory
    | tags => exact users_insertTag server db _
    | order => rfl
    | kit => rfl
    | items => exact items
    | users => rfl

/-- The users after one line. -/
theorem users_lineStore (state : LoopState) (line : Bytes) :
    (lineStore server db state line).users =
      if userLine state.mode line then
        (db.insertUser server (lineName line) (linePassword line)).users
      else
        db.users := by
  simp only [lineStore, userLine]
  by_cases comment : isComment line
  · simp [comment]
  · by_cases header : isHeader line
    · simp only [comment, header]
      cases sectionHeader line with
      | none => rfl
      | some name => exact users_headerStore server db _ _
    · simp only [comment, header]
      exact users_contentStore server db state line

end

/-! ## The rows of a script -/

section

variable {server : Server}

/-- The names and the digests of the users of a store. -/
def credentials (db : Db) : List (Bytes × Option Bytes) :=
  db.users.rows.map (fun row => (row.username, row.password))

/-- The password of a user is stored as its digest. -/
def digested (server : Server) (user : Bytes × Option Bytes) :
    Bytes × Option Bytes :=
  (user.1, user.2.map server.md5)

theorem credentials_insertUser
    (db : Db) (name : Bytes) (password : Option Bytes) :
    credentials (db.insertUser server name password) =
      credentials db ++
        (acceptedUser server name password).map (digested server) := by
  simp only [Db.insertUser, acceptedUser]
  split
  · simp [credentials, SerialTable.rows_insert, digested]
  · simp

theorem credentials_lineStore
    (db : Db) (state : LoopState) (line : Bytes) :
    credentials (lineStore server db state line) =
      credentials db ++
        (if userLine state.mode line then
            acceptedUser server (lineName line) (linePassword line)
          else
            []).map (digested server) := by
  rw [credentials, users_lineStore]
  split
  · exact credentials_insertUser db _ _
  · simp [credentials]

/-- Every run of the loop adds the users of its lines. -/
theorem credentials_run (current : LoopState × Db) (lines : List Bytes) :
    credentials (runActions (lineStep server) current lines).2 =
      credentials current.2 ++
        (addedUsers server current.1.mode lines).map (digested server) := by
  induction lines generalizing current with
  | nil => simp [addedUsers]
  | cons line rest inductionHypothesis =>
      have mode :
          (lineStep server current line).1.mode =
            nextMode current.1.mode line :=
        mode_lineState current.2 current.1 line
      have users :
          credentials (lineStep server current line).2 = _ :=
        credentials_lineStore current.2 current.1 line
      rw [runActions_cons, inductionHypothesis, mode, users, addedUsers,
        List.map_append, List.append_assoc]

/-- The rows of the users stay, and new ones are behind them. -/
theorem rows_lineStore (db : Db) (state : LoopState) (line : Bytes) :
    db.users.rows <+: (lineStore server db state line).users.rows := by
  rw [users_lineStore]
  split
  · simp only [Db.insertUser]
    split
    · exact ⟨_, (SerialTable.rows_insert ..).symm⟩
    · exact List.prefix_refl _
  · exact List.prefix_refl _

theorem rows_run (current : LoopState × Db) (lines : List Bytes) :
    current.2.users.rows <+:
      (runActions (lineStep server) current lines).2.users.rows := by
  induction lines generalizing current with
  | nil => exact List.prefix_refl _
  | cons line rest inductionHypothesis =>
      exact
        (rows_lineStore current.2 current.1 line).trans
          (inductionHypothesis (lineStep server current line))

/-- A digest is stored exactly if a password with this digest is. -/
theorem exists_digest_iff {db : Db} {users : List (Bytes × Option Bytes)}
    (stored : credentials db = users.map (digested server))
    (digest : Bytes) :
    (∃ row ∈ db.users.rows, row.password = some digest) ↔
      ∃ password ∈ users.filterMap Prod.snd, server.md5 password = digest := by
  have columns :
      db.users.rows.map UserRow.password =
        users.map (fun user => user.2.map server.md5) := by
    have second := congrArg (List.map Prod.snd) stored
    simpa [credentials, digested, Function.comp_def] using second
  constructor
  · rintro ⟨row, member, isDigest⟩
    have known : some digest ∈ db.users.rows.map UserRow.password :=
      List.mem_map.mpr ⟨row, member, isDigest⟩
    rw [columns] at known
    obtain ⟨user, userMember, same⟩ := List.mem_map.mp known
    obtain ⟨password, isPassword, isMd5⟩ := Option.map_eq_some_iff.mp same
    exact
      ⟨password, List.mem_filterMap.mpr ⟨user, userMember, isPassword⟩, isMd5⟩
  · rintro ⟨password, member, isMd5⟩
    obtain ⟨user, userMember, isPassword⟩ := List.mem_filterMap.mp member
    have known :
        some digest ∈ users.map (fun user => user.2.map server.md5) :=
      List.mem_map.mpr
        ⟨user, userMember, by rw [isPassword, Option.map_some, isMd5]⟩
    rw [← columns] at known
    exact List.mem_map.mp known

end

theorem addedUsers_append
    (server : Server) (mode : Option Mode) (first second : List Bytes) :
    addedUsers server mode (first ++ second) =
      addedUsers server mode first ++
        addedUsers server (first.foldl nextMode mode) second := by
  induction first generalizing mode with
  | nil => rfl
  | cons line rest inductionHypothesis =>
      simp only [List.cons_append, addedUsers, List.foldl_cons,
        List.append_assoc, inductionHypothesis]

/-! ## The line of a user in a posted text -/

/-- The line of a user. -/
def userText (name password : Bytes) : Bytes :=
  name ++ 44 :: password

/-- A line as it is sent in front of the given lines. -/
def sentLine (line : Bytes) (after : List Bytes) : Bytes :=
  if after = [] then line else line ++ [13]

/-- The lines before, the line, and the lines after it, as they are sent. -/
theorem returnedLines_split (before : List Bytes) (line : Bytes)
    (after : List Bytes) :
    ∃ rest,
      returnedLines (before ++ line :: after) =
          before.map (fun line => line ++ [13]) ++
            sentLine line after :: rest ∧
        (after = [] → rest = []) := by
  induction before with
  | nil =>
      cases after with
      | nil => exact ⟨[], rfl, fun _ => rfl⟩
      | cons next after =>
          refine ⟨returnedLines (next :: after), rfl, ?_⟩
          intro impossible
          cases impossible
  | cons first before inductionHypothesis =>
      obtain ⟨rest, split, alone⟩ := inductionHypothesis
      refine ⟨rest, ?_, alone⟩
      rw [List.cons_append, List.map_cons, List.cons_append, ← split]
      cases before with
      | nil => rfl
      | cons second before => rfl

theorem explode_userText {name password : Bytes}
    (nameWhole : 44 ∉ name) (passwordWhole : 44 ∉ password) :
    explode 44 (userText name password) = [name, password] := by
  rw [explode, userText, List.splitOn_append_cons_self_of_not_mem nameWhole,
    List.splitOn_eq_singleton passwordWhole]

theorem lineName_userText {name password : Bytes}
    (nameWhole : 44 ∉ name) (passwordWhole : 44 ∉ password) :
    lineName (userText name password) = pgvalue name := by
  rw [lineName, explode_userText nameWhole passwordWhole]
  rfl

theorem linePassword_userText {name password : Bytes}
    (nameWhole : 44 ∉ name) (passwordWhole : 44 ∉ password) :
    linePassword (userText name password) = some (pgvalue password) := by
  rw [linePassword, explode_userText nameWhole passwordWhole]
  rfl

theorem userLine_userText {name : Bytes} (password : Bytes)
    (noComment : name.head? ≠ some 35) (noHeader : name.head? ≠ some 91) :
    userLine (some .users) (userText name password) = true := by
  cases name with
  | nil => rfl
  | cons first rest =>
      simp_all [userLine, userText, isComment, isHeader]

end LtlsKitting.Operations
