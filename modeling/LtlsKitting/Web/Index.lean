import LtlsKitting.Web.Pages

/-!
# The dispatcher

`index.php` finds the role of a request, runs the operations of a request
that has a role, and answers with a redirection, a page or the result of a
call.  A session is a sequence of requests; its variables and the database
are carried from one request to the next.
-/

namespace LtlsKitting.Web

open LtlsKitting.Php LtlsKitting.Store LtlsKitting.Operations
open LtlsKitting.Sync LtlsKitting.Interaction

/-! ## Authentication -/

/-- The role that the session variables stand for. -/
def verifyExisting (session : Session) : Php (Option Role) :=
  match session.roleId with
  | none => pure none
  | some id =>
      if id = ltlsAdmin then
        pure (some .admin)
      else do
        let row ← query (.findUserByName (session.roleName.map pgvalue))
        pure (row.map Role.ofRow)

/-- The posted name and password. -/
def postedLogin (post : Params) : Option (Param × Param) :=
  match post.value (bytes "username"), post.value (bytes "password") with
  | some username, some password => some (username, password)
  | _, _ => none

/-- The posted name and password are those of the administrator. -/
def adminLogin (username password : Param) : Bool :=
  username.equals ltlsAdminAlias && password.equals ltlsAdminPasswd

/-- The role after the login, and whether a login name was recorded. -/
def login (post : Params) (existing : Option Role) :
    Php (Option Role × Bool) :=
  match postedLogin post with
  | none => pure (existing, false)
  | some (username, password) =>
      if adminLogin username password then
        pure (some .admin, false)
      else do
        let row ← query (.findUserByPassword (pgvalue password.scalar))
        pure ((row.map Role.ofRow).or existing, true)

/-- The request asks for a logout. -/
def HttpRequest.logout (request : HttpRequest) : Bool :=
  request.request.has (bytes "logout")

def authenticate (request : HttpRequest) (session : Session) :
    Php (Option Role × Bool) :=
  if request.logout then
    pure (none, false)
  else do
    let existing ← verifyExisting session
    login request.post existing

/-! ## Operations -/

/-- The order, the kit and the messages after `operations.php`. -/
def operations
    (role : Role) (request : HttpRequest) (messages : List Message) :
    Php ((Option OrderRow × Option KitRow) × List Message) := do
  let current ←
    selectCurrent (request.get.value (bytes "order_id"))
      (request.get.value (bytes "kit_id"))
  let warned :=
    if request.get.hasValue (bytes "scenario") (bytes "init") &&
        !role.isAdmin then
      messages ++
        [[bytes "yellow", bytes "red",
          bytes "Nur Administrator kann die Datenbank zurücksetzen!"]]
    else
      messages
  match request.post.value (bytes "code") with
  | none => pure (current, warned)
  | some code => do
      let final ← initScript warned code
      pure (current, final)

/-! ## Dispatch -/

/-- The session variables after the authentication. -/
def Session.settle (session : Session) : Option Role → Session
  | some role =>
      { session with roleId := some role.id, roleName := some role.name }
  | none => { session with roleId := none }

/-- The messages of a request without a role. -/
def deniedMessages
    (session : Session) (loginName : Bool) (messages : List Message) :
    List Message :=
  if session.roleId.isNone && loginName then
    messages ++
      [[bytes "danger",
        bytes "Authentifikation gescheitert! Versuch wurde protokolliert."]]
  else
    messages

/-- The reply and the messages that are left for the next request. -/
def dispatch
    (runtime : Runtime) (request : HttpRequest) (role : Option Role)
    (current : Option OrderRow × Option KitRow) (messages : List Message) :
    Php (Reply × List Message) :=
  if request.get.has (bytes "ajax") then do
    let reply ← ajax runtime request current.1 current.2
    pure (reply, messages)
  else if !request.post.isEmpty && role.isSome then
    pure (.redirect (redirectLocation runtime request.get), messages)
  else do
    let reply ← display role request.get messages current.1 current.2
    pure (reply, [])

/-- The order, the kit and the messages that the dispatch finds; without a
role the operations are not loaded and no order or kit is defined. -/
def prepare
    (request : HttpRequest) (session : Session) (role : Option Role)
    (loginName : Bool) :
    Php ((Option OrderRow × Option KitRow) × List Message) :=
  match role with
  | some current => operations current request (session.messages.getD [])
  | none =>
      pure
        ((none, none),
          deniedMessages session loginName (session.messages.getD []))

/-- What a request leaves behind. -/
structure Outcome where
  role : Option Role
  reply : Reply
  session : Session

/-- One request. -/
def index (runtime : Runtime) (request : HttpRequest) (session : Session) :
    Php Outcome := do
  let authenticated ← authenticate request session
  let prepared ←
    prepare request session authenticated.1 authenticated.2
  let answered ←
    dispatch runtime request authenticated.1 prepared.1 prepared.2
  pure
    { role := authenticated.1
      reply := answered.1
      session :=
        { session.settle authenticated.1 with
          messages := some answered.2 } }

/-! ## The role of a request -/

section

variable (server : Server) (db : Db)

/-- What the lookups of `verifyExisting` find. -/
def sessionRole (session : Session) : Option Role :=
  match session.roleId with
  | none => none
  | some id =>
      if id = ltlsAdmin then
        some .admin
      else
        (db.findUserByName server (session.roleName.map pgvalue)).map
          Role.ofRow

/-- The role that a posted login is granted. -/
def loginRole (post : Params) : Option Role :=
  match postedLogin post with
  | none => none
  | some (username, password) =>
      if adminLogin username password then
        some .admin
      else
        (db.findUserByPassword server (pgvalue password.scalar)).map
          Role.ofRow

/-- A granted login replaces the role of the session. -/
def requestRole (request : HttpRequest) (session : Session) : Option Role :=
  if request.logout then
    none
  else
    (loginRole server db request.post).or (sessionRole server db session)

theorem verifyExisting_reads (session : Session) :
    (verifyExisting session).Issues (fun effect => effect.reads = true) := by
  simp only [verifyExisting]
  cases session.roleId with
  | none =>
      exact Program.issues_pure _ _
  | some id =>
      by_cases admin : id = ltlsAdmin
      · simp only [admin, if_true]
        exact Program.issues_pure _ _
      · simp only [admin, if_false]
        exact
          Program.issues_bind (Program.issues_issue rfl)
            (fun _ => Program.issues_pure _ _)

theorem login_reads (post : Params) (existing : Option Role) :
    (login post existing).Issues (fun effect => effect.reads = true) := by
  simp only [login]
  cases postedLogin post with
  | none =>
      exact Program.issues_pure _ _
  | some posted =>
      dsimp only
      by_cases admin : adminLogin posted.1 posted.2
      · rw [if_pos admin]
        exact Program.issues_pure _ _
      · rw [if_neg admin]
        exact
          Program.issues_bind (Program.issues_issue rfl)
            (fun _ => Program.issues_pure _ _)

theorem authenticate_reads (request : HttpRequest) (session : Session) :
    (authenticate request session).Issues
      (fun effect => effect.reads = true) := by
  simp only [authenticate]
  by_cases leaving : request.logout
  · rw [if_pos leaving]
    exact Program.issues_pure _ _
  · rw [if_neg leaving]
    exact
      Program.issues_bind (verifyExisting_reads session)
        (fun existing => login_reads request.post existing)

theorem eval_verifyExisting (session : Session) :
    (verifyExisting session).eval (perform server) db =
      sessionRole server db session := by
  simp only [verifyExisting, sessionRole]
  cases session.roleId with
  | none =>
      rfl
  | some id =>
      dsimp only
      split <;> rfl

theorem eval_login (post : Params) (existing : Option Role) :
    ((login post existing).eval (perform server) db).1 =
      (loginRole server db post).or existing := by
  simp only [login, loginRole]
  cases postedLogin post with
  | none =>
      rfl
  | some posted =>
      dsimp only
      split <;> rfl

theorem eval_authenticate (request : HttpRequest) (session : Session) :
    ((authenticate request session).eval (perform server) db).1 =
      requestRole server db request session := by
  simp only [authenticate, requestRole]
  by_cases leaving : request.logout
  · rw [if_pos leaving, if_pos leaving]
    rfl
  · rw [if_neg leaving, if_neg leaving, Program.eval_bind, eval_login,
      eval_verifyExisting,
      exec_of_reads (verifyExisting_reads session) server db]

/-- A request is executed under the role that its lookups find. -/
theorem role_index
    (runtime : Runtime) (request : HttpRequest) (session : Session) :
    ((index runtime request session).eval (perform server) db).role =
      requestRole server db request session := by
  simp only [index]
  rw [Program.eval_bind, Program.eval_bind, Program.eval_bind]
  exact eval_authenticate server db request session

/-- The session variables of the role that a request leaves behind. -/
theorem session_index
    (runtime : Runtime) (request : HttpRequest) (session : Session) :
    ∃ messages,
      ((index runtime request session).eval (perform server) db).session =
        { session.settle (requestRole server db request session) with
          messages := some messages } := by
  simp only [index]
  rw [Program.eval_bind, Program.eval_bind, Program.eval_bind,
    eval_authenticate]
  exact ⟨_, rfl⟩

/-- The effects of a request: the lookups of the authentication, then those of
the operations, then those of the reply. -/
theorem trace_index
    (runtime : Runtime) (request : HttpRequest) (session : Session) :
    ∃ loginName current messages,
      (index runtime request session).trace (perform server) db =
        (authenticate request session).trace (perform server) db ++
          ((prepare request session (requestRole server db request session)
                loginName).trace (perform server) db ++
            (dispatch runtime request
                (requestRole server db request session) current
                messages).trace (perform server)
              ((prepare request session
                (requestRole server db request session)
                loginName).exec (perform server) db)) := by
  simp only [index]
  rw [Program.trace_bind, Program.trace_bind, Program.trace_bind,
    eval_authenticate,
    exec_of_reads (authenticate_reads request session) server db,
    Program.trace_pure, List.append_nil]
  exact ⟨_, _, _, rfl⟩

end

end LtlsKitting.Web
