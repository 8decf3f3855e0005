import LtlsKitting.Client.Documents
import LtlsKitting.Web.Concurrency
import LtlsKitting.Web.Forms

/-!
# Posts as they are sent

A tick posts its documents as the fields of a form, and names the order and
the kit in the query.  Handled by the dispatcher in a session with a role, the
request synchronises the kit with the posted table; without a role it does
nothing.
-/

namespace LtlsKitting.Client

open LtlsKitting.Php LtlsKitting.Store LtlsKitting.Operations
open LtlsKitting.Sync LtlsKitting.Web LtlsKitting.Interaction
open LtlsKitting.Relational

/-! ## Requests -/

/-- `?ajax=1&scenario=kitting&order_id=..&kit_id=..` -/
def syncQuery (orderId kitId : Int) : Bytes :=
  bytes "ajax=1&scenario=kitting&order_id=" ++ decimal orderId ++
    bytes "&kit_id=" ++ decimal kitId

/-- `?scenario=kitting&order_id=..&kit_id=..` -/
def kitQuery (orderId kitId : Int) : Bytes :=
  bytes "scenario=kitting&order_id=" ++ decimal orderId ++
    bytes "&kit_id=" ++ decimal kitId

/-- The request that the server makes of a query and a posted form. -/
def receiveRequest (limit : Nat) (query body : Bytes) : HttpRequest where
  get := formParams limit query
  post := formParams limit body
  request := formParams limit body ++ formParams limit query

/-- The fields of a query that selects a kit. -/
def kitFields (orderId kitId : Int) : List (Bytes × Bytes) :=
  [(bytes "scenario", bytes "kitting"), (bytes "order_id", decimal orderId),
    (bytes "kit_id", decimal kitId)]

theorem urlencode_decimal (value : Int) :
    urlencode (decimal value) = decimal value := by
  have kept :
      ∀ byte ∈ decimal value, urlencodeByte byte = [byte] := by
    intro byte member
    have isKept : isUrlKept byte = true := by
      rcases decimal_bytes value byte member with digit | rfl
      · rw [isDigit_iff] at digit
        simp [isUrlKept, isAlnum, UInt8.le_iff_toNat_le, digit]
      · decide
    simp only [isUrlKept] at isKept
    rw [urlencodeByte, if_pos isKept]
  rw [urlencode, List.flatMap_congr kept]
  simp

theorem kitQuery_eq (orderId kitId : Int) :
    kitQuery orderId kitId = queryText (kitFields orderId kitId) := by
  have kitting : urlencode (bytes "kitting") = bytes "kitting" := by decide
  simp only [queryText, kitFields, List.map_cons, List.map_nil, kitting,
    urlencode_decimal, implode, List.intercalate_cons_cons,
    List.intercalate_singleton, kitQuery]
  have first :
      bytes "scenario=kitting&order_id=" =
        bytes "scenario" ++ 61 :: bytes "kitting" ++ [38] ++
          bytes "order_id" ++ [61] := by
    decide
  have second : bytes "&kit_id=" = [38] ++ bytes "kit_id" ++ [61] := by decide
  rw [first, second]
  simp only [List.append_assoc, List.cons_append, List.nil_append]

theorem syncQuery_eq (orderId kitId : Int) :
    syncQuery orderId kitId =
      queryText ((bytes "ajax", bytes "1") :: kitFields orderId kitId) := by
  have first :
      bytes "ajax=1&scenario=kitting&order_id=" =
        bytes "ajax" ++ 61 :: urlencode (bytes "1") ++ [38] ++
          bytes "scenario=kitting&order_id=" := by
    decide
  have whole := kitQuery_eq orderId kitId
  simp only [queryText, kitFields, implode, List.map_cons, List.map_nil,
    List.intercalate_cons_cons] at whole ⊢
  rw [← whole, syncQuery, kitQuery, first]
  simp only [List.append_assoc, List.cons_append]

theorem formParams_kitQuery
    {limit : Nat} (enough : 4 ≤ limit) (orderId kitId : Int) :
    formParams limit (kitQuery orderId kitId) =
      textParams (kitFields orderId kitId) := by
  have plain :
      [bytes "scenario", bytes "order_id", bytes "kit_id"].all isPlainName =
        true := by
    decide
  have different :
      [bytes "scenario", bytes "order_id", bytes "kit_id"].Nodup := by
    decide
  rw [kitQuery_eq]
  apply formParams_queryText
  · intro entry member
    exact List.all_eq_true.mp plain entry.1 (List.mem_map_of_mem member)
  · exact different
  · exact (by decide : 3 ≤ 4).trans enough
  · exact List.cons_ne_nil _ _

theorem formParams_syncQuery
    {limit : Nat} (enough : 4 ≤ limit) (orderId kitId : Int) :
    formParams limit (syncQuery orderId kitId) =
      textParams ((bytes "ajax", bytes "1") :: kitFields orderId kitId) := by
  have plain :
      [bytes "ajax", bytes "scenario", bytes "order_id",
        bytes "kit_id"].all isPlainName = true := by
    decide
  have different :
      [bytes "ajax", bytes "scenario", bytes "order_id",
        bytes "kit_id"].Nodup := by
    decide
  rw [syncQuery_eq]
  apply formParams_queryText
  · intro entry member
    exact List.all_eq_true.mp plain entry.1 (List.mem_map_of_mem member)
  · exact different
  · exact enough
  · exact List.cons_ne_nil _ _

/-- The request of a tick. -/
def syncRequest
    (limit : Nat) (orderId kitId : Int) (texts : List Bytes) : HttpRequest :=
  receiveRequest limit (syncQuery orderId kitId) (requestsParam texts)

/-- The request that opens the page of a kit. -/
def kitRequestOf (limit : Nat) (orderId kitId : Int) : HttpRequest :=
  receiveRequest limit (kitQuery orderId kitId) []

/-! ## What the dispatcher does -/

/-- The number is one that the server can cast. -/
def Machine (value : Int) : Prop :=
  minInt ≤ value ∧ value ≤ maxInt

instance (value : Int) : Decidable (Machine value) :=
  inferInstanceAs (Decidable (minInt ≤ value ∧ value ≤ maxInt))

/-- The store and the rows after a synchronisation of a kit that may not
exist. -/
def served
    (server : Server) (db : Db) (orderId kitId : Int)
    (requests : List SyncRequest) : Db × Option (List Goal) :=
  match db.orders.lookup orderId, db.findKit orderId kitId with
  | some order, some kit =>
      ((syncKit order.id kit.id requests).exec (perform server) db,
        some ((syncKit order.id kit.id requests).eval (perform server) db))
  | _, _ => (db, none)

/-- The store after the page of a kit that may not exist is opened, and the
kit that is shown. -/
def opened
    (server : Server) (db : Db) (role : Role) (orderId kitId : Int) :
    Db × Option (Int × Int) :=
  match db.orders.lookup orderId, db.findKit orderId kitId with
  | some order, some kit =>
      ((pageKit role order kit).exec (perform server) db,
        some (order.id, kit.id))
  | _, _ => (db, none)

/-- The rows of a reply. -/
def replyGoals : Reply → Option (List Goal)
  | .goals rows => some rows
  | _ => none

/-- The kit whose page is shown. -/
def replyKit : Reply → Option (Int × Int)
  | .page _ _ (.kit orderId kitId _) => some (orderId, kitId)
  | _ => none

section

variable {server : Server} {runtime : Runtime} {db : Db}
variable {session : Session} {limit : Nat} {orderId kitId : Int}

theorem intval_decimal {value : Int} (machine : Machine value) :
    intval (decimal value) = value := by
  have read :=
    @intval_decimal_append value machine.1 machine.2 [] (by simp)
  rw [List.append_nil] at read
  exact read

/-- The order and the kit that two parameters select. -/
theorem eval_selectCurrent (order kit : Param) :
    (selectCurrent (some order) (some kit)).eval (perform server) db =
      (db.orders.lookup order.intval,
        (db.orders.lookup order.intval).bind
          (fun _ => db.findKit order.intval kit.intval)) := by
  have found :
      (query (.findOrder order.intval)).eval (perform server) db =
        db.orders.lookup order.intval := rfl
  simp only [selectCurrent]
  rw [Program.eval_bind, found]
  cases isOrder : db.orders.lookup order.intval with
  | none => rfl
  | some row =>
      have same : row.id = order.intval := (SerialTable.mem_of_lookup isOrder).2
      dsimp only
      rw [Program.eval_bind, same]
      rfl

/-- A request that neither logs in nor out has the role of its session. -/
theorem requestRole_of_session {request : HttpRequest}
    (staying : request.request.has (bytes "logout") = false)
    (noLogin : request.post.value (bytes "username") = none) :
    requestRole server db request session = sessionRole server db session := by
  have noRole : loginRole server db request.post = none := by
    simp only [loginRole, postedLogin, noLogin]
  simp only [requestRole, HttpRequest.logout, staying, Bool.false_eq_true,
    if_false, noRole, Option.none_or]

/-- Posted documents are no parameter of any other name. -/
theorem value_requestsParams {name : Bytes} (other : name ≠ bytes "requests")
    (texts : List Bytes) : (requestsParams texts).value name = none := by
  cases texts with
  | nil => rfl
  | cons first rest =>
      simp [requestsParams, Params.value, other]

theorem has_requestsParams {name : Bytes} (other : name ≠ bytes "requests")
    (texts : List Bytes) : (requestsParams texts).has name = false := by
  rw [Params.has, value_requestsParams other]
  rfl

/-- The parameters of the request of a tick. -/
theorem syncRequest_eq
    (enough : 4 ≤ limit) (orderId kitId : Int) (texts : List Bytes) :
    syncRequest limit orderId kitId texts =
      { get := textParams ((bytes "ajax", bytes "1") :: kitFields orderId kitId)
        post := requestsParams (texts.take limit)
        request :=
          requestsParams (texts.take limit) ++
            textParams
              ((bytes "ajax", bytes "1") :: kitFields orderId kitId) } := by
  rw [syncRequest, receiveRequest, formParams_syncQuery enough,
    formParams_requestsParam]

theorem kitRequestOf_eq
    (enough : 4 ≤ limit) (orderId kitId : Int) :
    kitRequestOf limit orderId kitId =
      { get := textParams (kitFields orderId kitId)
        post := []
        request := textParams (kitFields orderId kitId) } := by
  rw [kitRequestOf, receiveRequest, formParams_kitQuery enough, formParams_nil]
  rfl

theorem requestRole_syncRequest
    (enough : 4 ≤ limit) (orderId kitId : Int) (texts : List Bytes) :
    requestRole server db (syncRequest limit orderId kitId texts) session =
      sessionRole server db session := by
  rw [syncRequest_eq enough]
  apply requestRole_of_session
  · change Params.has (_ ++ _) _ = false
    rw [has_append, has_requestsParams (by decide)]
    rfl
  · exact value_requestsParams (by decide) _

theorem requestRole_kitRequestOf
    (enough : 4 ≤ limit) (orderId kitId : Int) :
    requestRole server db (kitRequestOf limit orderId kitId) session =
      sessionRole server db session := by
  rw [kitRequestOf_eq enough]
  exact requestRole_of_session rfl rfl

/-- A request without a script, in a session with a role, is dispatched with
the order and the kit that its parameters select. -/
theorem index_of_selected {request : HttpRequest}
    (noCode : request.post.value (bytes "code") = none)
    {current : Option OrderRow × Option KitRow}
    (selected :
      (selectCurrent (request.get.value (bytes "order_id"))
          (request.get.value (bytes "kit_id"))).eval (perform server) db =
        current)
    {role : Role}
    (isRole : requestRole server db request session = some role) :
    ∃ messages,
      (index runtime request session).exec (perform server) db =
          (dispatch runtime request (some role) current messages).exec
            (perform server) db ∧
        (index runtime request session).eval (perform server) db =
          { role := some role
            reply :=
              ((dispatch runtime request (some role) current messages).eval
                (perform server) db).1
            session :=
              { session.settle (some role) with
                messages :=
                  some
                    ((dispatch runtime request (some role) current
                      messages).eval (perform server) db).2 } } := by
  simp only [index]
  rw [Program.exec_bind, Program.exec_bind, Program.exec_bind,
    Program.eval_bind, Program.eval_bind, Program.eval_bind,
    eval_authenticate, isRole,
    exec_of_reads (authenticate_reads request session) server db]
  simp only [prepare, operations, noCode]
  rw [Program.exec_bind, Program.eval_bind, selected,
    exec_of_reads (selectCurrent_reads _ _) server db]
  exact ⟨_, rfl, rfl⟩

/-- A request without a script: the role, the selected kit, and the reply. -/
theorem index_of_no_code {request : HttpRequest}
    (noCode : request.post.value (bytes "code") = none) {order kit : Param}
    (hasOrder : request.get.value (bytes "order_id") = some order)
    (hasKit : request.get.value (bytes "kit_id") = some kit) {role : Role}
    (isRole : requestRole server db request session = some role) :
    ∃ messages,
      (index runtime request session).exec (perform server) db =
          (dispatch runtime request (some role)
            (db.orders.lookup order.intval,
              (db.orders.lookup order.intval).bind
                (fun _ => db.findKit order.intval kit.intval))
            messages).exec (perform server) db ∧
        ((index runtime request session).eval (perform server) db).reply =
          ((dispatch runtime request (some role)
            (db.orders.lookup order.intval,
              (db.orders.lookup order.intval).bind
                (fun _ => db.findKit order.intval kit.intval))
            messages).eval (perform server) db).1 := by
  have selected :
      (selectCurrent (request.get.value (bytes "order_id"))
          (request.get.value (bytes "kit_id"))).eval (perform server) db =
        (db.orders.lookup order.intval,
          (db.orders.lookup order.intval).bind
            (fun _ => db.findKit order.intval kit.intval)) := by
    rw [hasOrder, hasKit, eval_selectCurrent]
  obtain ⟨messages, executed, outcome⟩ :=
    @index_of_selected server runtime db session request noCode _ selected
      role isRole
  exact ⟨messages, executed, congrArg Outcome.reply outcome⟩

/-- The requests that the server makes of the posted texts. -/
def decodedRequests (runtime : Runtime) (texts : List Bytes) :
    List SyncRequest :=
  texts.filterMap (fun text => decodeRequest (runtime.jsonDecode text))

theorem postedRequests_requestsParams (texts : List Bytes) :
    Web.postedRequests runtime (requestsParams texts) =
      decodedRequests runtime texts := by
  cases texts with
  | nil => rfl
  | cons first rest =>
      have present :
          Params.value (requestsParams (first :: rest)) (bytes "requests") =
            some (.array ((first :: rest).map .text)) := rfl
      simp only [Web.postedRequests, present]
      rw [List.filterMap_map]
      rfl

/-- In a session with a role, a tick is served. -/
theorem index_syncRequest
    (enough : 4 ≤ limit) (order : Machine orderId) (kit : Machine kitId)
    (texts : List Bytes)
    (recognised : (sessionRole server db session).isSome = true) :
    (index runtime (syncRequest limit orderId kitId texts) session).exec
          (perform server) db =
        (served server db orderId kitId
          (decodedRequests runtime (texts.take limit))).1 ∧
      replyGoals
          ((index runtime (syncRequest limit orderId kitId texts)
            session).eval (perform server) db).reply =
        (served server db orderId kitId
          (decodedRequests runtime (texts.take limit))).2 := by
  obtain ⟨role, isRole⟩ := Option.isSome_iff_exists.mp recognised
  rw [← @requestRole_syncRequest server db session limit enough orderId kitId
    texts] at isRole
  rw [syncRequest_eq enough] at isRole ⊢
  obtain ⟨messages, executed, replied⟩ :=
    @index_of_no_code server runtime db session
      { get := textParams ((bytes "ajax", bytes "1") :: kitFields orderId kitId)
        post := requestsParams (texts.take limit)
        request :=
          requestsParams (texts.take limit) ++
            textParams
              ((bytes "ajax", bytes "1") :: kitFields orderId kitId) }
      (value_requestsParams (by decide) _) (.text (decimal orderId))
      (.text (decimal kitId)) rfl rfl role isRole
  rw [executed, replied]
  simp only [Param.intval, intval_decimal order, intval_decimal kit]
  have isAjax :
      (textParams ((bytes "ajax", bytes "1") ::
        kitFields orderId kitId)).has (bytes "ajax") = true := rfl
  have noPrint :
      (textParams ((bytes "ajax", bytes "1") ::
        kitFields orderId kitId)).value (bytes "print") = none := rfl
  have noCabinet :
      (textParams ((bytes "ajax", bytes "1") ::
        kitFields orderId kitId)).has (bytes "cabinet") = false := rfl
  simp only [dispatch, isAjax, if_true, ajax, noPrint, noCabinet,
    Bool.false_eq_true, if_false, served]
  cases db.orders.lookup orderId with
  | none => exact ⟨rfl, rfl⟩
  | some order =>
      simp only [Option.bind_some]
      cases db.findKit orderId kitId with
      | none => exact ⟨rfl, rfl⟩
      | some kit =>
          dsimp only
          rw [postedRequests_requestsParams]
          refine ⟨?_, ?_⟩
          · rw [Program.exec_bind, Program.exec_bind]
            rfl
          · rw [Program.eval_bind, Program.eval_bind]
            rfl

theorem eval_pageKit (role : Role) (order : OrderRow) (kit : KitRow) :
    (pageKit role order kit).eval (perform server) db =
      .kit order.id kit.id kit.status := by
  simp only [pageKit]
  rw [Program.eval_bind, Program.eval_bind]
  rfl

/-- In a session with a role, the page of a kit is opened. -/
theorem index_kitRequestOf
    (enough : 4 ≤ limit) (order : Machine orderId) (kit : Machine kitId)
    {role : Role} (isRole : sessionRole server db session = some role) :
    (index runtime (kitRequestOf limit orderId kitId) session).exec
          (perform server) db =
        (opened server db role orderId kitId).1 ∧
      replyKit
          ((index runtime (kitRequestOf limit orderId kitId)
            session).eval (perform server) db).reply =
        (opened server db role orderId kitId).2 := by
  rw [← @requestRole_kitRequestOf server db session limit enough orderId
    kitId] at isRole
  rw [kitRequestOf_eq enough] at isRole ⊢
  obtain ⟨messages, executed, replied⟩ :=
    @index_of_no_code server runtime db session
      { get := textParams (kitFields orderId kitId)
        post := []
        request := textParams (kitFields orderId kitId) }
      rfl (.text (decimal orderId)) (.text (decimal kitId)) rfl rfl role
      isRole
  rw [executed, replied]
  simp only [Param.intval, intval_decimal order, intval_decimal kit]
  have noAjax :
      (textParams (kitFields orderId kitId)).has (bytes "ajax") = false := rfl
  have kitting :
      (textParams (kitFields orderId kitId)).hasValue (bytes "scenario")
        (bytes "kitting") = true := by
    rfl
  simp only [dispatch, noAjax, Bool.false_eq_true, if_false,
    List.isEmpty_nil, Bool.not_true, Bool.false_and, display, pageContent,
    pages, kitting, if_true, opened]
  cases db.orders.lookup orderId with
  | none => exact ⟨rfl, rfl⟩
  | some order =>
      simp only [Option.bind_some]
      cases db.findKit orderId kitId with
      | none => exact ⟨rfl, rfl⟩
      | some kit =>
          dsimp only
          refine ⟨?_, ?_⟩
          · rw [Program.exec_bind, Program.exec_bind]
            rfl
          · rw [Program.eval_bind, Program.eval_bind, eval_pageKit]
            rfl

/-! ## Sessions without a role -/

theorem index_of_no_role {request : HttpRequest}
    (noRole : requestRole server db request session = none) :
    ∃ messages,
      (index runtime request session).exec (perform server) db =
          (dispatch runtime request none (none, none) messages).exec
            (perform server) db ∧
        ((index runtime request session).eval (perform server) db).reply =
          ((dispatch runtime request none (none, none) messages).eval
            (perform server) db).1 := by
  simp only [index]
  rw [Program.exec_bind, Program.exec_bind, Program.exec_bind,
    Program.eval_bind, Program.eval_bind, Program.eval_bind,
    eval_authenticate, noRole,
    exec_of_reads (authenticate_reads request session) server db]
  exact ⟨_, rfl, rfl⟩

/-- Without a role, the login form is shown. -/
theorem index_kitRequestOf_roleless
    (enough : 4 ≤ limit) (noRole : sessionRole server db session = none) :
    (index runtime (kitRequestOf limit orderId kitId) session).exec
          (perform server) db = db ∧
      replyKit
          ((index runtime (kitRequestOf limit orderId kitId)
            session).eval (perform server) db).reply = none := by
  rw [← @requestRole_kitRequestOf server db session limit enough orderId
    kitId] at noRole
  obtain ⟨messages, executed, replied⟩ :=
    @index_of_no_role server runtime db session _ noRole
  rw [executed, replied, kitRequestOf_eq enough]
  exact ⟨rfl, rfl⟩

/-! ## The users and the sessions -/

theorem users_perform {effect : Effect} (keeps : effect.loads = false) :
    (perform server effect db).2.users = db.users := by
  cases effect <;> first | rfl | cases keeps

/-- A request that posts no script leaves the users. -/
theorem users_index {request : HttpRequest}
    (noCode : request.post.has (bytes "code") = false) :
    ((index runtime request session).exec (perform server) db).users =
      db.users := by
  have kept :
      ∀ effect (current : Db), effect.loads = false →
        current.users = db.users →
          (perform server effect current).2.users = db.users := by
    intro effect current keeps same
    rw [users_perform keeps, same]
  exact (index_keepsTables runtime noCode session).exec kept rfl

theorem mem_of_findUserByName {name : Option Bytes} {row : UserRow}
    (found : db.findUserByName server name = some row) :
    row ∈ db.users.rows := by
  simp only [Db.findUserByName] at found
  split at found
  · split at found
    · exact List.mem_of_find?_eq_some found
    · cases found
  · cases found

/-- Every user has a name that can be looked up. -/
def NamesValid (server : Server) (db : Db) : Prop :=
  ∀ row ∈ db.users.rows, server.encoding.valid row.username = true

theorem sessionRole_congr
    {other : Db} {later : Session} (sameUsers : other.users = db.users)
    (sameId : later.roleId = session.roleId)
    (sameName : later.roleName = session.roleName) :
    sessionRole server other later = sessionRole server db session := by
  simp only [sessionRole, sameId, sameName, Db.findUserByName, sameUsers]

/-- A session keeps having a role. -/
theorem sessionRole_settle
    (valid : NamesValid server db) {role : Role}
    (isRole : sessionRole server db session = some role) :
    (sessionRole server db (session.settle (some role))).isSome = true := by
  simp only [sessionRole, Session.settle]
  by_cases admin : role.id = ltlsAdmin
  · rw [if_pos admin]
    rfl
  · rw [if_neg admin]
    simp only [sessionRole] at isRole
    cases current : session.roleId with
    | none =>
        rw [current] at isRole
        cases isRole
    | some id =>
        rw [current] at isRole
        by_cases wasAdmin : id = ltlsAdmin
        · simp only [wasAdmin, if_true, Option.some.injEq] at isRole
          rw [← isRole] at admin
          exact absurd rfl admin
        · simp only [wasAdmin, if_false] at isRole
          obtain ⟨row, found, rfl⟩ := Option.map_eq_some_iff.mp isRole
          have member := mem_of_findUserByName found
          have again :
              (db.users.rows.find?
                (fun other =>
                  server.upper other.username =
                    server.upper row.username)).isSome = true := by
            rw [List.find?_isSome]
            exact ⟨row, member, by simp⟩
          simp only [Role.ofRow, Option.map_some,
            Encoding.pgvalue_eq (valid row member), Db.findUserByName,
            valid row member, if_true, Option.isSome_map]
          exact again

end

end LtlsKitting.Client
