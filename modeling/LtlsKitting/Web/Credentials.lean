import LtlsKitting.Web.Index

/-!
# The credentials behind a role

The requests of one session, handled one after the other.  A role is founded
on credentials if, after the last logout, its own name and password were
posted and nobody else has logged in since.

The login looks a user up by the password alone, and a later request looks
the user up by the name up to case.  If both lookups find the user they should
find, every request of the session is founded on credentials.
-/

namespace LtlsKitting.Web

open LtlsKitting.Php LtlsKitting.Store LtlsKitting.Interaction

/-- The database and the variables of the session. -/
structure Site where
  db : Db
  session : Session

/-- One request of the session. -/
def Site.step
    (server : Server) (runtime : Runtime) (site : Site)
    (request : HttpRequest) : Site where
  db := (index runtime request site.session).exec (perform server) site.db
  session :=
    ((index runtime request site.session).eval
      (perform server) site.db).session

/-- The role of the next request. -/
def Site.role
    (server : Server) (runtime : Runtime) (site : Site)
    (request : HttpRequest) : Option Role :=
  ((index runtime request site.session).eval (perform server) site.db).role

/-- The request posts the name of the user together with the password. -/
def PostsCredentials
    (server : Server) (db : Db) (id : Int) (request : HttpRequest) : Prop :=
  (id = ltlsAdmin ∧
      postedLogin request.post =
        some (.text ltlsAdminAlias, .text ltlsAdminPasswd)) ∨
    ∃ row ∈ db.users.rows, ∃ password,
      row.id = id ∧
        postedLogin request.post =
          some (.text row.username, .text password) ∧
        row.password = some (server.md5 password)

/-- Since the last logout the credentials of the user were posted, and no
later request logged in as someone else. -/
def Presented
    (server : Server) (db : Db) (id : Int) (history : List HttpRequest) :
    Prop :=
  ∃ earlier request later,
    history = earlier ++ request :: later ∧
      PostsCredentials server db id request ∧
      request.logout = false ∧
      ∀ other ∈ later,
        other.logout = false ∧
          ∀ role, loginRole server db other.post = some role → role.id = id

/-- The user found by the posted password, if it is not already the user of
the session, is the one whose name was posted, and the password is a text
that is not cut at a zero byte. -/
def loginMatches
    (server : Server) (site : Site) (request : HttpRequest) : Bool :=
  match postedLogin request.post with
  | none => true
  | some (username, password) =>
      adminLogin username password ||
        (site.db.findUserByPassword server (pgvalue password.scalar)).all
          (fun row =>
            site.session.roleId == some row.id ||
              (username.equals row.username && password.isText &&
                !password.scalar.contains 0))

/-- The user found by the name of the session is the one of the session. -/
def nameMatches (server : Server) (site : Site) : Bool :=
  match site.session.roleId with
  | none => true
  | some id =>
      id == ltlsAdmin ||
        (site.db.findUserByName server
            (site.session.roleName.map pgvalue)).all
          (fun row => row.id == id)

/-- Whichever lookup decides the role of the request finds the right user. -/
def credentialsMatch
    (server : Server) (site : Site) (request : HttpRequest) : Bool :=
  request.logout ||
    (loginMatches server site request &&
      ((loginRole server site.db request.post).isSome ||
        nameMatches server site))

theorem loginMatches_found
    {server : Server} {site : Site} {request : HttpRequest}
    (matching : loginMatches server site request = true)
    {username password : Param} {row : UserRow}
    (posted : postedLogin request.post = some (username, password))
    (user : adminLogin username password = false)
    (found :
      site.db.findUserByPassword server (pgvalue password.scalar) =
        some row) :
    site.session.roleId = some row.id ∨
      username = .text row.username ∧ password = .text password.scalar ∧
        pgvalue password.scalar = password.scalar := by
  simp only [loginMatches, posted, user, found, Bool.false_or,
    Option.all_some, Bool.or_eq_true, beq_iff_eq, Bool.and_eq_true,
    Bool.not_eq_true', List.contains_eq_mem, decide_eq_false_iff_not]
    at matching
  rcases matching with already | ⟨⟨sameName, isText⟩, whole⟩
  · exact Or.inl already
  · exact
      Or.inr
        ⟨(Param.equals_iff _ _).mp sameName, Param.eq_text_scalar isText,
          (pgvalue_eq_iff _).mpr whole⟩

theorem nameMatches_found
    {server : Server} {site : Site}
    (matching : nameMatches server site = true)
    {id : Int} {row : UserRow}
    (current : site.session.roleId = some id) (user : id ≠ ltlsAdmin)
    (found :
      site.db.findUserByName server (site.session.roleName.map pgvalue) =
        some row) :
    row.id = id := by
  simp only [nameMatches, current, found, Option.all_some, Bool.or_eq_true,
    beq_iff_eq, user, false_or] at matching
  exact matching

theorem loginRole_congr
    (server : Server) {first second : Db} (same : first.users = second.users)
    (post : Params) :
    loginRole server first post = loginRole server second post := by
  simp only [loginRole, Db.findUserByPassword]
  rw [same]

theorem Presented.append
    {server : Server} {db : Db} {id : Int} {history : List HttpRequest}
    (presented : Presented server db id history)
    {request : HttpRequest} (staying : request.logout = false)
    (same :
      ∀ role, loginRole server db request.post = some role → role.id = id) :
    Presented server db id (history ++ [request]) := by
  obtain ⟨earlier, first, later, split, posted, stayed, others⟩ := presented
  refine ⟨earlier, first, later ++ [request], ?_, posted, stayed, ?_⟩
  · rw [split, List.append_assoc, List.cons_append]
  · intro other member
    rcases List.mem_append.mp member with before | last
    · exact others other before
    · rw [List.mem_singleton.mp last]
      exact ⟨staying, same⟩

theorem PostsCredentials.presented
    {server : Server} {db : Db} {id : Int} {request : HttpRequest}
    (posted : PostsCredentials server db id request)
    (staying : request.logout = false) (history : List HttpRequest) :
    Presented server db id (history ++ [request]) :=
  ⟨history, request, [], rfl, posted, staying, by
    intro other member
    cases member⟩

/-- A granted login is the one of the administrator or of a user found by the
password. -/
theorem loginRole_cases
    {server : Server} {db : Db} {post : Params} {role : Role}
    (granted : loginRole server db post = some role) :
    (role = .admin ∧
        postedLogin post =
          some (.text ltlsAdminAlias, .text ltlsAdminPasswd)) ∨
      ∃ username password row,
        postedLogin post = some (username, password) ∧
          adminLogin username password = false ∧
          db.findUserByPassword server (pgvalue password.scalar) = some row ∧
          role = .ofRow row := by
  simp only [loginRole] at granted
  cases posted : postedLogin post with
  | none =>
      rw [posted] at granted
      cases granted
  | some pair =>
      obtain ⟨username, password⟩ := pair
      rw [posted] at granted
      cases admin : adminLogin username password with
      | true =>
          left
          simp only [admin, if_true, Option.some.injEq] at granted
          have both := Bool.and_eq_true_iff.mp admin
          rw [(Param.equals_iff _ _).mp both.1,
            (Param.equals_iff _ _).mp both.2]
          exact ⟨granted.symm, rfl⟩
      | false =>
          right
          simp only [admin, Bool.false_eq_true, if_false] at granted
          obtain ⟨row, found, same⟩ := Option.map_eq_some_iff.mp granted
          exact ⟨username, password, row, rfl, admin, found, same.symm⟩

theorem findUserByPassword_some
    {server : Server} {db : Db} {password : Bytes} {row : UserRow}
    (found : db.findUserByPassword server password = some row) :
    row ∈ db.users.rows ∧ row.password = some (server.md5 password) := by
  simp only [Db.findUserByPassword] at found
  split at found
  · exact
      ⟨List.mem_of_find?_eq_some found, by
        simpa using List.find?_some found⟩
  · cases found

/-- The role of a session is the administrator, or a user found by the name;
if the names match, it is the role that the session was left with. -/
theorem sessionRole_id
    {server : Server} {site : Site}
    (matching : nameMatches server site = true) {role : Role}
    (kept : sessionRole server site.db site.session = some role) :
    site.session.roleId = some role.id := by
  simp only [sessionRole] at kept
  cases current : site.session.roleId with
  | none =>
      rw [current] at kept
      cases kept
  | some id =>
      rw [current] at kept
      by_cases admin : id = ltlsAdmin
      · simp only [admin, if_true, Option.some.injEq] at kept
        rw [admin, ← kept]
        rfl
      · simp only [admin, if_false] at kept
        obtain ⟨row, found, rfl⟩ := Option.map_eq_some_iff.mp kept
        have same : row.id = id :=
          nameMatches_found matching current admin found
        rw [← same]
        rfl

/-- One request: if the role of the session is founded on credentials, so is
the role of the request. -/
theorem requestRole_presented
    {server : Server} {initial : Db} {site : Site}
    {history : List HttpRequest} {request : HttpRequest} {role : Role}
    (unchanged : site.db.users = initial.users)
    (founded :
      ∀ id, site.session.roleId = some id →
        Presented server initial id history)
    (matching : credentialsMatch server site request = true)
    (executed :
      requestRole server site.db request site.session = some role) :
    Presented server initial role.id (history ++ [request]) := by
  have staying : request.logout = false := by
    by_contra leaving
    simp [requestRole, leaving] at executed
  simp only [requestRole, staying, Bool.false_eq_true, if_false] at executed
  simp only [credentialsMatch, staying, Bool.false_or, Bool.and_eq_true,
    Bool.or_eq_true] at matching
  cases granted : loginRole server site.db request.post with
  | some loggedIn =>
      rw [granted, Option.some_or, Option.some.injEq] at executed
      subst executed
      rcases loginRole_cases granted with
        ⟨rfl, posted⟩ | ⟨username, password, row, posted, user, found, rfl⟩
      · exact
          PostsCredentials.presented (Or.inl ⟨rfl, posted⟩) staying history
      · rcases loginMatches_found matching.1 posted user found with
          already | ⟨sameName, isText, whole⟩
        · refine (founded row.id already).append staying ?_
          intro other otherGranted
          rw [← loginRole_congr server unchanged, granted] at otherGranted
          rw [← Option.some.inj otherGranted]
          rfl
        · obtain ⟨member, digest⟩ := findUserByPassword_some found
          rw [unchanged] at member
          rw [whole] at digest
          rw [sameName, isText] at posted
          exact
            PostsCredentials.presented
              (Or.inr ⟨row, member, _, rfl, posted, digest⟩) staying history
  | none =>
      rw [granted, Option.none_or] at executed
      have names : nameMatches server site = true := by
        simpa [granted] using matching.2
      refine (founded role.id (sessionRole_id names executed)).append staying ?_
      intro other otherGranted
      rw [← loginRole_congr server unchanged, granted] at otherGranted
      cases otherGranted

section

variable (server : Server) (runtime : Runtime) (initial : Db)

/-- One request: the session is left with a role that is founded on
credentials. -/
theorem step_presented
    {site : Site} {history : List HttpRequest} {request : HttpRequest}
    (unchanged : site.db.users = initial.users)
    (founded :
      ∀ id, site.session.roleId = some id →
        Presented server initial id history)
    (matching : credentialsMatch server site request = true)
    {id : Int}
    (current :
      (site.step server runtime request).session.roleId = some id) :
    Presented server initial id (history ++ [request]) := by
  obtain ⟨messages, session⟩ :=
    session_index server site.db runtime request site.session
  have settled :
      ((Session.settle _
        (requestRole server site.db request site.session))).roleId =
          some id :=
    (congrArg Session.roleId session).symm.trans current
  cases executed : requestRole server site.db request site.session with
  | none =>
      rw [executed] at settled
      cases settled
  | some role =>
      rw [executed] at settled
      have same : role.id = id := Option.some.inj settled
      rw [← same]
      exact requestRole_presented unchanged founded matching executed

/-- After any number of requests, the role of the session is founded on
credentials. -/
theorem session_presented
    (requests : List HttpRequest)
    (unchanged :
      EveryState (Site.step server runtime)
        (fun site => site.db.users = initial.users)
        ⟨initial, Session.fresh⟩ requests)
    (matching :
      EveryStep (Site.step server runtime)
        (fun site request => credentialsMatch server site request = true)
        ⟨initial, Session.fresh⟩ requests) :
    ∀ id,
      (runActions (Site.step server runtime) ⟨initial, Session.fresh⟩
          requests).session.roleId = some id →
        Presented server initial id requests := by
  induction requests using List.reverseRecOn with
  | nil =>
      intro id current
      cases current
  | append_singleton earlier request inductionHypothesis =>
      intro id current
      obtain ⟨earlierMatching, lastMatching⟩ := everyStep_append.mp matching
      have founded :=
        inductionHypothesis unchanged.initialPart earlierMatching
      rw [runActions_append] at current
      exact
        step_presented server runtime initial unchanged.visited founded
          lastMatching.1 current

/-- In a session whose lookups all find the right user, every request is
executed under a role whose credentials were presented. -/
theorem role_presented
    (requests : List HttpRequest)
    (unchanged :
      EveryState (Site.step server runtime)
        (fun site => site.db.users = initial.users)
        ⟨initial, Session.fresh⟩ requests)
    (matching :
      EveryStep (Site.step server runtime)
        (fun site request => credentialsMatch server site request = true)
        ⟨initial, Session.fresh⟩ requests)
    (earlier later : List HttpRequest) (request : HttpRequest)
    (split : requests = earlier ++ request :: later)
    (role : Role)
    (executed :
      (runActions (Site.step server runtime) ⟨initial, Session.fresh⟩
          earlier).role server runtime request = some role) :
    Presented server initial role.id (earlier ++ [request]) := by
  rw [split] at unchanged matching
  obtain ⟨earlierMatching, laterMatching⟩ := everyStep_append.mp matching
  have founded :=
    session_presented server runtime initial earlier unchanged.initialPart
      earlierMatching
  simp only [Site.role] at executed
  rw [role_index] at executed
  exact
    requestRole_presented unchanged.visited founded laterMatching.1 executed

end

/-- A request that posts a name and a password. -/
def loginRequest (username password : Bytes) : HttpRequest where
  get := []
  post := [(bytes "username", .text username),
    (bytes "password", .text password)]
  request := [(bytes "username", .text username),
    (bytes "password", .text password)]

def logoutRequest : HttpRequest where
  get := [(bytes "logout", .text [])]
  post := []
  request := [(bytes "logout", .text [])]

theorem role_presented_bob :
    Presented Server.plain staffed 1
      [loginRequest (bytes "Administrator") (bytes "admin"), logoutRequest,
        loginRequest (bytes "Bob") (bytes "a"), ⟨[], [], []⟩] :=
  role_presented Server.plain Runtime.plain staffed
    [loginRequest (bytes "Administrator") (bytes "admin"), logoutRequest,
      loginRequest (bytes "Bob") (bytes "a"), ⟨[], [], []⟩]
    ⟨rfl, rfl, rfl, rfl, rfl⟩ (by decide)
    [loginRequest (bytes "Administrator") (bytes "admin"), logoutRequest,
      loginRequest (bytes "Bob") (bytes "a")]
    [] ⟨[], [], []⟩ rfl ⟨1, bytes "Bob"⟩ (by decide)

/-- A password alone is enough: a request that posts another name is executed
under the first user who has this password. -/
theorem role_without_name :
    (Site.step Server.plain Runtime.plain ⟨staffed, Session.fresh⟩
            (loginRequest (bytes "Eve") (bytes "a"))).db.users =
          staffed.users ∧
      (Site.mk staffed Session.fresh).role Server.plain Runtime.plain
          (loginRequest (bytes "Eve") (bytes "a")) =
        some ⟨1, bytes "Bob"⟩ ∧
      ¬ Presented Server.plain staffed 1
          [loginRequest (bytes "Eve") (bytes "a")] := by
  refine ⟨rfl, by decide, ?_⟩
  rintro ⟨earlier, request, later, split, posted, _⟩
  have same : request = loginRequest (bytes "Eve") (bytes "a") := by
    have member : request ∈ [loginRequest (bytes "Eve") (bytes "a")] := by
      rw [split]
      simp
    exact List.mem_singleton.mp member
  subst same
  rcases posted with ⟨impossible, _⟩ | ⟨row, member, password, _, login, _⟩
  · cases impossible
  · have names :
        ∀ row ∈ staffed.users.rows, row.username ≠ bytes "Eve" := by
      decide
    have sameName : Param.text (bytes "Eve") = .text row.username :=
      congrArg Prod.fst (Option.some.inj login)
    exact names row member (Param.text.inj sameName).symm

end LtlsKitting.Web
