import LtlsKitting.Operations.UserLines
import LtlsKitting.Web.Credentials

/-!
# Logins of the users of a script

A script is posted with a carriage return and a line feed between its lines.
The line of a user is split at commas and stored with the carriage return at
its end, as a part of the password.  A login looks for the digest of the
password alone, so it does not find the user of a line that is followed by
another one.  Names and passwords are cut at their first zero byte, together
with a carriage return behind it.
-/

namespace LtlsKitting.Web

open LtlsKitting.Php LtlsKitting.Store LtlsKitting.Operations
open LtlsKitting.Interaction LtlsKitting.Relational

/-- The rows that a line adds to the users. -/
def insertedUsers
    (server : Server) (current : LoopState × Db) (line : Bytes) :
    List UserRow :=
  (lineStep server current line).2.users.rows.filter
    (fun row => row ∉ current.2.users.rows)

/-- The loop after the given lines of a posted script. -/
def reached
    (server : Server) (messages : List Message) (db : Db)
    (lines : List Bytes) : LoopState × Db :=
  runActions (lineStep server) (LoopState.start messages, db.truncate)
    (lines.map (fun line => line ++ [13]))

/-- The line of a user among the lines of a script. -/
structure UserScript
    (before : List Bytes) (name password : Bytes) (after : List Bytes) :
    Prop where
  clean : ∀ line ∈ before ++ userText name password :: after, 10 ∉ line
  inUsers : before.foldl nextMode (some .inventory) = some .users
  noComment : name.head? ≠ some 35
  noHeader : name.head? ≠ some 91
  noAlias : name ≠ ltlsAdminAlias
  nameWhole : 44 ∉ name
  passwordWhole : 44 ∉ password

/-- No other password that the text stores has the digest of the password. -/
def DigestsDiffer (server : Server) (text password : Bytes) : Prop :=
  ∀ stored ∈ storedPasswords server (some .inventory) (explode 10 text),
    server.md5 stored = server.md5 (pgvalue password) →
      stored = pgvalue password

/-- The password is stored as a login looks for it: there is no carriage
return behind it, or a zero byte before. -/
def StoredWhole (password : Bytes) (after : List Bytes) : Prop :=
  after = [] ∨ 0 ∈ password

/-- The database accepts the name and the password, up to their first zero
bytes. -/
def ValidUser (server : Server) (name password : Bytes) : Prop :=
  server.encoding.valid (pgvalue name) = true ∧
    server.encoding.valid (pgvalue password) = true

/-- A user whose line was sent before has the same password. -/
def PasswordTaken
    (server : Server) (before : List Bytes) (password : Bytes) : Prop :=
  pgvalue password ∈
    storedPasswords server (some .inventory)
      (before.map (fun line => line ++ [13]))

/-- The text posted for a script. -/
def postedText
    (before : List Bytes) (name password : Bytes) (after : List Bytes) :
    Bytes :=
  joinedText [13, 10] (before ++ userText name password :: after)

/-- Whatever the session holds, a request is executed as the user that the
line of the script has added. -/
def LoginResolved
    (server : Server) (runtime : Runtime) (messages : List Message)
    (db later : Db) (before : List Bytes) (name password : Bytes)
    (after : List Bytes) (request : HttpRequest) : Prop :=
  ∃ row ∈
      insertedUsers server (reached server messages db before)
        (sentLine (userText name password) after),
    ∀ session,
      (Site.mk later session).role server runtime request =
        some (Role.ofRow row)

theorem sentLine_userText (name password : Bytes) (after : List Bytes) :
    sentLine (userText name password) after =
      userText name (sentLine password after) := by
  simp only [sentLine, userText]
  split
  · rfl
  · simp

theorem sentLine_whole {text : Bytes} (whole : 44 ∉ text)
    (after : List Bytes) : 44 ∉ sentLine text after := by
  simp only [sentLine]
  split
  · exact whole
  · simpa using whole

/-- The password of the line is stored as it is looked up exactly if no
carriage return is stored with it. -/
theorem pgvalue_sentLine_eq_iff {password : Bytes} {after : List Bytes} :
    pgvalue (sentLine password after) = pgvalue password ↔
      StoredWhole password after := by
  simp only [StoredWhole, sentLine]
  split
  next last => simp [last]
  next others =>
    by_cases cut : 0 ∈ password
    · simp [pgvalue_append_of_mem cut, cut]
    · have whole := (pgvalue_eq_iff password).mpr cut
      have returned : pgvalue [13] = [13] := by decide
      simp [pgvalue_append cut, whole, returned, others, cut]

/-- The row of a user. -/
def userRow (server : Server) (id : Int) (name stored : Bytes) : UserRow where
  id := id
  username := pgvalue name
  password := some (server.md5 (pgvalue stored))

section

variable {server : Server}

/-- The line of a user adds the row of the user. -/
theorem lineStep_userText
    {current : LoopState × Db} (inUsers : current.1.mode = some .users)
    {name stored : Bytes} (noComment : name.head? ≠ some 35)
    (noHeader : name.head? ≠ some 91)
    (nameWhole : 44 ∉ name) (storedWhole : 44 ∉ stored) :
    (ValidUser server name stored →
        (lineStep server current (userText name stored)).2.users.rows =
          current.2.users.rows ++
            [userRow server current.2.users.nextKey name stored]) ∧
      (¬ ValidUser server name stored →
        (lineStep server current (userText name stored)).2.users.rows =
          current.2.users.rows) := by
  have users :=
    users_lineStore server current.2 current.1 (userText name stored)
  rw [inUsers, if_pos (userLine_userText stored noComment noHeader),
    lineName_userText nameWhole storedWhole,
    linePassword_userText nameWhole storedWhole] at users
  simp only [lineStep, users, Db.insertUser, Option.all_some, ValidUser]
  constructor
  · intro valid
    rw [if_pos valid]
    rfl
  · intro refused
    rw [if_neg refused]

theorem mem_insertedUsers
    {current : LoopState × Db} (inUsers : current.1.mode = some .users)
    {name stored : Bytes} (noComment : name.head? ≠ some 35)
    (noHeader : name.head? ≠ some 91)
    (nameWhole : 44 ∉ name) (storedWhole : 44 ∉ stored) (row : UserRow) :
    row ∈ insertedUsers server current (userText name stored) ↔
      ValidUser server name stored ∧
        row = userRow server current.2.users.nextKey name stored := by
  obtain ⟨added, unchanged⟩ :=
    @lineStep_userText server current inUsers name stored noComment noHeader
      nameWhole storedWhole
  have fresh :
      userRow server current.2.users.nextKey name stored ∉
        current.2.users.rows := by
    intro member
    have smaller := current.2.users.below _ member
    simp only [userRow] at smaller
    omega
  simp only [insertedUsers, List.mem_filter, decide_eq_true_eq]
  constructor
  · rintro ⟨member, notOld⟩
    by_cases valid : ValidUser server name stored
    · rw [added valid] at member
      rcases List.mem_append.mp member with old | new
      · exact absurd old notOld
      · exact ⟨valid, List.mem_singleton.mp new⟩
    · rw [unchanged valid] at member
      exact absurd member notOld
  · rintro ⟨valid, rfl⟩
    rw [added valid]
    exact ⟨List.mem_append_right _ (List.mem_singleton_self _), fresh⟩

/-- A login that is not the administrator's is decided by the password. -/
theorem role_posted
    (runtime : Runtime) (db : Db) (session : Session) {request : HttpRequest}
    {name password : Bytes}
    (posted :
      postedLogin request.post = some (.text name, .text password))
    (noAlias : name ≠ ltlsAdminAlias) (staying : request.logout = false) :
    (Site.mk db session).role server runtime request =
      ((db.findUserByPassword server (pgvalue password)).map Role.ofRow).or
        (sessionRole server db session) := by
  have noAdmin : adminLogin (.text name) (.text password) = false := by
    have other : (Param.text name).equals ltlsAdminAlias = false := by
      rw [← Bool.not_eq_true, Param.equals_iff]
      intro same
      exact noAlias (Param.text.inj same)
    rw [adminLogin, other, Bool.false_and]
  rw [Site.role, role_index, requestRole, staying, loginRole, posted]
  simp only [noAdmin]
  rfl

end

section

variable {server : Server} {messages : List Message} {db : Db}
variable {before after : List Bytes} {name password : Bytes}

/-- The lines of the posted text. -/
theorem explode_postedText (script : UserScript before name password after) :
    ∃ rest,
      (after = [] → rest = []) ∧
        explode 10 (postedText before name password after) =
          before.map (fun line => line ++ [13]) ++
            userText name (sentLine password after) :: rest := by
  obtain ⟨rest, split, alone⟩ :=
    returnedLines_split before (userText name password) after
  rw [sentLine_userText] at split
  exact ⟨rest, alone, (explode_joined_return script.clean).trans split⟩

/-- The loop reaches the line of the user, and goes on with the rest. -/
theorem loadedStore_split {text line : Bytes} {rest : List Bytes}
    (exploded :
      explode 10 text =
        before.map (fun line => line ++ [13]) ++ line :: rest) :
    loadedStore server messages db text =
      (runActions (lineStep server)
        (lineStep server (reached server messages db before) line) rest).2 := by
  rw [loadedStore_eq, exploded, runActions_append]
  rfl

theorem mode_reached
    (inUsers : before.foldl nextMode (some .inventory) = some .users) :
    (reached server messages db before).1.mode = some .users := by
  rw [reached, mode_run, foldl_nextMode_return]
  exact inUsers

/-- A digest is found before the line exactly if a password with this digest
was stored. -/
theorem reached_digest_iff
    (empty : db.users.rows = []) (digest : Bytes) :
    (∃ row ∈ (reached server messages db before).2.users.rows,
        row.password = some digest) ↔
      ∃ password ∈
          storedPasswords server (some .inventory)
            (before.map (fun line => line ++ [13])),
        server.md5 password = digest := by
  have truncated : credentials db.truncate = [] := by
    simp [credentials, Db.truncate, empty]
  have run :=
    @credentials_run server (LoopState.start messages, db.truncate)
      (before.map (fun line => line ++ [13]))
  rw [truncated, List.nil_append] at run
  exact exists_digest_iff run digest

theorem stored_posted (script : UserScript before name password after)
    (valid : ValidUser server name (sentLine password after)) :
    pgvalue (sentLine password after) ∈
      storedPasswords server (some .inventory)
        (explode 10 (postedText before name password after)) := by
  obtain ⟨rest, _, exploded⟩ := explode_postedText script
  rw [exploded, storedPasswords, addedUsers_append, foldl_nextMode_return,
    script.inUsers, List.filterMap_append]
  apply List.mem_append_right
  have storedWhole := sentLine_whole script.passwordWhole after
  rw [addedUsers,
    if_pos (userLine_userText _ script.noComment script.noHeader),
    lineName_userText script.nameWhole storedWhole,
    linePassword_userText script.nameWhole storedWhole,
    acceptedUser_of_valid valid.1 valid.2]
  simp

theorem stored_before (script : UserScript before name password after)
    {stored : Bytes}
    (known :
      stored ∈
        storedPasswords server (some .inventory)
          (before.map (fun line => line ++ [13]))) :
    stored ∈
      storedPasswords server (some .inventory)
        (explode 10 (postedText before name password after)) := by
  obtain ⟨rest, _, exploded⟩ := explode_postedText script
  rw [exploded, storedPasswords, addedUsers_append, List.filterMap_append]
  exact List.mem_append_left _ known

variable {runtime : Runtime} {later : Db} {request : HttpRequest}

/-- The users that are found later begin with those before the line and the
one of the line. -/
theorem rows_later (script : UserScript before name password after)
    (kept :
      later.users =
        (loadedStore server messages db
          (postedText before name password after)).users)
    (valid : ValidUser server name (sentLine password after)) :
    ∃ more,
      later.users.rows =
        (reached server messages db before).2.users.rows ++
          userRow server (reached server messages db before).2.users.nextKey
              name (sentLine password after) :: more := by
  obtain ⟨rest, _, exploded⟩ := explode_postedText script
  have added :=
    (@lineStep_userText server _
      (@mode_reached server messages db _ script.inUsers) name
      (sentLine password after) script.noComment script.noHeader
      script.nameWhole (sentLine_whole script.passwordWhole after)).1 valid
  obtain ⟨more, rows⟩ :=
    @rows_run server
      (lineStep server (reached server messages db before)
        (userText name (sentLine password after))) rest
  refine ⟨more, ?_⟩
  rw [kept, loadedStore_split exploded, ← rows, added, List.append_assoc]
  rfl

/-- No user before the line is found by the password exactly if none has it. -/
theorem find_before_eq_none_iff
    (empty : db.users.rows = [])
    (script : UserScript before name password after)
    (differ :
      DigestsDiffer server (postedText before name password after)
        password) :
    (reached server messages db before).2.users.rows.find?
          (fun row =>
            row.password = some (server.md5 (pgvalue password))) =
        none ↔
      ¬ PasswordTaken server before password := by
  rw [List.find?_eq_none]
  constructor
  · intro nobody taken
    obtain ⟨row, member, isDigest⟩ :=
      (@reached_digest_iff server messages db _ empty _).mpr
        ⟨_, taken, rfl⟩
    exact nobody row member (decide_eq_true isDigest)
  · intro free row member isDigest
    obtain ⟨stored, known, same⟩ :=
      (@reached_digest_iff server messages db _ empty _).mp
        ⟨row, member, of_decide_eq_true isDigest⟩
    apply free
    rw [PasswordTaken, ← differ stored (stored_before script known) same]
    exact known

/-- The user as whom a login is executed was found by the password. -/
theorem found_of_role
    {row : UserRow} (member : row ∈ later.users.rows)
    (posted :
      postedLogin request.post = some (.text name, .text password))
    (noAlias : name ≠ ltlsAdminAlias) (staying : request.logout = false)
    (role :
      (Site.mk later Session.fresh).role server runtime request =
        some (Role.ofRow row)) :
    later.findUserByPassword server (pgvalue password) = some row := by
  rw [role_posted runtime later _ posted noAlias staying] at role
  have granted :
      (later.findUserByPassword server (pgvalue password)).map Role.ofRow =
        some (Role.ofRow row) := by
    simpa [sessionRole, Session.fresh] using role
  obtain ⟨other, isOther, sameRole⟩ := Option.map_eq_some_iff.mp granted
  have same : other = row :=
    later.users.identifies.eq_of_key_eq (findUserByPassword_some isOther).1
      member (congrArg Role.id sameRole)
  rw [← same]
  exact isOther

/-- A user who is found has a password that was stored as it is looked up,
and that no user before has. -/
theorem stored_of_resolved
    (empty : db.users.rows = [])
    (script : UserScript before name password after)
    (differ :
      DigestsDiffer server (postedText before name password after) password)
    (kept :
      later.users =
        (loadedStore server messages db
          (postedText before name password after)).users)
    (posted :
      postedLogin request.post = some (.text name, .text password))
    (staying : request.logout = false)
    (resolved :
      LoginResolved server runtime messages db later before name password
        after request) :
    StoredWhole password after ∧ ValidUser server name password ∧
      ¬ PasswordTaken server before password := by
  obtain ⟨row, inserted, role⟩ := resolved
  have inUsers := @mode_reached server messages db _ script.inUsers
  have storedWhole := sentLine_whole script.passwordWhole after
  rw [sentLine_userText] at inserted
  have new :
      row ∉ (reached server messages db before).2.users.rows := by
    simpa using (List.mem_filter.mp inserted).2
  obtain ⟨valid, isRow⟩ :=
    (mem_insertedUsers inUsers script.noComment script.noHeader
      script.nameWhole storedWhole row).mp inserted
  obtain ⟨more, rows⟩ :=
    @rows_later server messages db _ _ _ _ later script kept valid
  rw [← isRow] at rows
  have member : row ∈ later.users.rows := by
    rw [rows]
    simp
  have found :=
    found_of_role member posted script.noAlias staying (role Session.fresh)
  have isDigest := (findUserByPassword_some found).2
  rw [isRow] at isDigest
  have unchanged : pgvalue (sentLine password after) = pgvalue password :=
    differ _ (stored_posted script valid) (Option.some.inj isDigest)
  rw [ValidUser, unchanged] at valid
  refine ⟨pgvalue_sentLine_eq_iff.mp unchanged, valid, ?_⟩
  rw [← find_before_eq_none_iff empty script differ]
  by_contra taken
  -- Otherwise the login finds the first user with the password.
  obtain ⟨first, isFirst⟩ := Option.ne_none_iff_exists'.mp taken
  rw [Db.findUserByPassword, if_pos valid.2, rows, List.find?_append, isFirst,
    Option.some_or, Option.some.injEq] at found
  exact new (found ▸ List.mem_of_find?_eq_some isFirst)

/-- The user of the line is found by a password that was stored as it is
looked up, and that no user before has. -/
theorem resolved_of_stored
    (empty : db.users.rows = [])
    (script : UserScript before name password after)
    (differ :
      DigestsDiffer server (postedText before name password after) password)
    (kept :
      later.users =
        (loadedStore server messages db
          (postedText before name password after)).users)
    (posted :
      postedLogin request.post = some (.text name, .text password))
    (staying : request.logout = false)
    (whole : StoredWhole password after)
    (valid : ValidUser server name password)
    (free : ¬ PasswordTaken server before password) :
    LoginResolved server runtime messages db later before name password after
      request := by
  have unchanged : pgvalue (sentLine password after) = pgvalue password :=
    pgvalue_sentLine_eq_iff.mpr whole
  have validSent : ValidUser server name (sentLine password after) := by
    rw [ValidUser, unchanged]
    exact valid
  have inUsers := @mode_reached server messages db _ script.inUsers
  have storedWhole := sentLine_whole script.passwordWhole after
  obtain ⟨more, rows⟩ :=
    @rows_later server messages db _ _ _ _ later script kept validSent
  refine
    ⟨userRow server (reached server messages db before).2.users.nextKey name
      (sentLine password after), ?_, ?_⟩
  · rw [sentLine_userText]
    exact
      (mem_insertedUsers inUsers script.noComment script.noHeader
        script.nameWhole storedWhole _).mpr ⟨validSent, rfl⟩
  · intro session
    have found :
        later.findUserByPassword server (pgvalue password) =
          some
            (userRow server
              (reached server messages db before).2.users.nextKey name
              (sentLine password after)) := by
      rw [Db.findUserByPassword, if_pos valid.2, rows, List.find?_append,
        (find_before_eq_none_iff empty script differ).mpr free]
      simp [userRow, unchanged]
    rw [role_posted runtime later session posted script.noAlias staying, found]
    rfl

/-- A user of a script can log in exactly if the password is stored as it is
looked up (the line is the last one of the posted text, with no line break
after it, or the password is cut at a zero byte), the database accepts the
texts, and no user before has the password. -/
theorem login_resolved_iff
    (empty : db.users.rows = [])
    (script : UserScript before name password after)
    (differ :
      DigestsDiffer server (postedText before name password after) password)
    (kept :
      later.users =
        (loadedStore server messages db
          (postedText before name password after)).users)
    (posted :
      postedLogin request.post = some (.text name, .text password))
    (staying : request.logout = false) :
    LoginResolved server runtime messages db later before name password after
        request ↔
      StoredWhole password after ∧ ValidUser server name password ∧
        ¬ PasswordTaken server before password := by
  constructor
  · exact stored_of_resolved empty script differ kept posted staying
  · rintro ⟨whole, valid, free⟩
    exact
      resolved_of_stored empty script differ kept posted staying whole valid
        free

end

/-- The plain server with the digests of two passwords that end in a carriage
return. -/
def returnDigests : Server :=
  { Server.plain with
    md5 := fun text =>
      if text = bytes "a" ++ [13] then
        [0x1a, 0xcf, 0x82, 0xbe, 0x62, 0x84, 0xb4, 0x70,
          0x63, 0x6b, 0x4c, 0x3a, 0xee, 0x95, 0x42, 0x54]
      else if text = bytes "b" ++ [13] then
        [0x35, 0x1e, 0x12, 0xd1, 0x72, 0xf9, 0xcc, 0x1c,
          0x76, 0x80, 0x57, 0x0d, 0xaa, 0x1d, 0x3b, 0x12]
      else
        Server.plain.md5 text }

theorem login_resolved_iff_bob :
    LoginResolved returnDigests Runtime.plain [] Db.empty
      (loadedStore returnDigests [] Db.empty
        (postedText [bytes "[USERS]", bytes "ann,b"] (bytes "bob")
          (bytes "a") []))
      [bytes "[USERS]", bytes "ann,b"] (bytes "bob") (bytes "a") []
      (loginRequest (bytes "bob") (bytes "a")) := by
  have script :
      UserScript [bytes "[USERS]", bytes "ann,b"] (bytes "bob")
        (bytes "a") [] := by
    constructor <;> decide
  have differ :
      DigestsDiffer returnDigests
        (postedText [bytes "[USERS]", bytes "ann,b"] (bytes "bob")
          (bytes "a") []) (bytes "a") := by
    have stored :
        storedPasswords returnDigests (some .inventory)
            (explode 10
              (postedText [bytes "[USERS]", bytes "ann,b"] (bytes "bob")
                (bytes "a") [])) =
          [bytes "b" ++ [13], bytes "a"] := by
      decide
    rw [DigestsDiffer, stored]
    decide
  have free :
      ¬ PasswordTaken returnDigests [bytes "[USERS]", bytes "ann,b"]
          (bytes "a") := by
    have stored :
        storedPasswords returnDigests (some .inventory)
            ([bytes "[USERS]", bytes "ann,b"].map
              (fun line => line ++ [13])) =
          [bytes "b" ++ [13]] := by
      decide
    rw [PasswordTaken, stored]
    decide
  exact
    (login_resolved_iff rfl script differ rfl rfl rfl).mpr
      ⟨Or.inl rfl, ⟨by decide, by decide⟩, free⟩

/-- With a line break after the last line, nobody is found. -/
theorem terminated_login_refused :
    UserScript [bytes "[USERS]"] (bytes "bob") (bytes "a") [[]] ∧
      insertedUsers returnDigests
          (reached returnDigests [] Db.empty [bytes "[USERS]"])
          (sentLine (userText (bytes "bob") (bytes "a")) [[]]) =
        [userRow returnDigests 1 (bytes "bob") (bytes "a" ++ [13])] ∧
      (Site.mk
            (loadedStore returnDigests [] Db.empty
              (postedText [bytes "[USERS]"] (bytes "bob") (bytes "a") [[]]))
            Session.fresh).role returnDigests Runtime.plain
          (loginRequest (bytes "bob") (bytes "a")) =
        none ∧
      ¬ LoginResolved returnDigests Runtime.plain [] Db.empty
          (loadedStore returnDigests [] Db.empty
            (postedText [bytes "[USERS]"] (bytes "bob") (bytes "a") [[]]))
          [bytes "[USERS]"] (bytes "bob") (bytes "a") [[]]
          (loginRequest (bytes "bob") (bytes "a")) := by
  have refused :
      (Site.mk
            (loadedStore returnDigests [] Db.empty
              (postedText [bytes "[USERS]"] (bytes "bob") (bytes "a") [[]]))
            Session.fresh).role returnDigests Runtime.plain
          (loginRequest (bytes "bob") (bytes "a")) =
        none := by
    decide
  refine ⟨?_, by decide, refused, ?_⟩
  · constructor <;> decide
  · rintro ⟨row, _, role⟩
    have granted := role Session.fresh
    rw [refused] at granted
    cases granted

end LtlsKitting.Web
