import LtlsKitting.Sync.Custody
import LtlsKitting.Web.Access

/-!
# Requests as orders

The requests of any number of sessions, handled one after the other.  A
request that loads no script leaves the plan of the depot as it is, and moves
goods only by the orders of the documents that it posts to a kit.  Every run of
such requests is therefore a run of the depot.  The script `reset.php`, which
asks for no role, fills the stock up and empties the groups.
-/

namespace LtlsKitting.Web

open LtlsKitting.Php LtlsKitting.Store LtlsKitting.Operations
open LtlsKitting.Sync LtlsKitting.Interaction LtlsKitting.Depot
open LtlsKitting.Relational

/-! ## Effects -/

/-- The effect may change what the depot holds, or its plan. -/
def movesGoods : Effect → Bool
  | .takeStock _ _ | .setCount _ _ | .setTag _ _ | .setInventory _ _ => true
  | effect => effect.loads

/-- The tables of the depot are the same. -/
structure SameDepot (before after : Db) : Prop where
  classes : after.classes = before.classes
  groups : after.groups = before.groups
  tags : after.tags = before.tags

theorem SameDepot.refl (db : Db) : SameDepot db db :=
  ⟨rfl, rfl, rfl⟩

theorem SameDepot.trans {first second third : Db}
    (same : SameDepot first second) (more : SameDepot second third) :
    SameDepot first third :=
  ⟨more.classes.trans same.classes, more.groups.trans same.groups,
    more.tags.trans same.tags⟩

theorem sameDepot_perform
    (server : Server) {effect : Effect} (still : movesGoods effect = false)
    (db : Db) : SameDepot db (perform server effect db).2 := by
  cases effect <;> first | exact ⟨rfl, rfl, rfl⟩ | cases still

section

variable {before after : Db}

theorem SameDepot.holdings (same : SameDepot before after) :
    after.holdings = before.holdings := by
  have sameStock : after.inventory = before.inventory := by
    funext classId
    simp only [Db.inventory, same.classes]
  have sameGroup : after.group = before.group := by
    funext key
    simp only [Db.group, same.groups]
  simp only [Db.holdings, sameStock, sameGroup]

theorem SameDepot.kept
    (same : SameDepot before after) (identified : before.GroupsIdentified)
    (known : ClassesKnown before) : Kept before after := by
  refine ⟨?_, ?_, ?_, ?_, ?_⟩
  · rw [Db.GroupsIdentified, same.groups]
    exact identified
  · rw [ClassesKnown, same.groups, same.classes]
    exact known
  · exact Db.plan_of_fixed (by rw [same.groups])
  · rw [Db.labels, same.tags]
    rfl
  · rw [same.classes]

end

/-- On no branch does the program move goods. -/
def MovesNothing {α : Type} (program : Php α) : Prop :=
  program.Issues (fun effect => movesGoods effect = false)

theorem MovesNothing.exec
    {α : Type} {program : Php α} (still : MovesNothing program)
    (server : Server) (db : Db) :
    SameDepot db (program.exec (perform server) db) := by
  have kept :
      ∀ effect current,
        movesGoods effect = false → SameDepot db current →
          SameDepot db (perform server effect current).2 :=
    fun effect current isStill same =>
      same.trans (sameDepot_perform server isStill current)
  exact Program.Issues.exec still kept (SameDepot.refl db)

/-- The pages assign kits and switch the lights, but move nothing. -/
theorem pages_movesNothing
    (role : Role) (get : Params)
    (order : Option OrderRow) (kit : Option KitRow) :
    MovesNothing (pages role get order kit) := by
  have led :
      ∀ {α : Type} (following : Unit → Php α),
        (∀ value, MovesNothing (following value)) →
          MovesNothing (query (.shell ledOff) >>= following) :=
    fun following rest =>
      Program.issues_bind (Program.issues_issue rfl) rest
  simp only [pages]
  split
  · split
    · apply Program.issues_bind
      · simp only [assignOpened]
        split
        · exact Program.issues_pure _ ()
        · exact Program.issues_issue rfl
      · intro _
        exact
          Program.issues_bind (Program.issues_issue rfl)
            (fun _ => Program.issues_pure _ _)
    · exact
        led _ (fun _ =>
          Program.issues_bind (Program.issues_issue rfl)
            (fun _ => Program.issues_pure _ _))
    · exact
        led _ (fun _ =>
          Program.issues_bind (Program.issues_issue rfl)
            (fun _ => Program.issues_pure _ _))
  · split
    · exact Program.issues_pure _ _
    · exact led _ (fun _ => Program.issues_pure _ _)

theorem display_movesNothing
    (role : Option Role) (get : Params) (messages : List Message)
    (order : Option OrderRow) (kit : Option KitRow) :
    MovesNothing (display role get messages order kit) := by
  have content : MovesNothing (pageContent role get order kit) := by
    cases role with
    | none => exact Program.issues_pure _ _
    | some someone => exact pages_movesNothing someone get order kit
  exact Program.issues_bind content (fun _ => Program.issues_pure _ _)

/-! ## One request -/

/-- The request is a call that is neither for the printer nor for the
lights. -/
def HttpRequest.synchronises (request : HttpRequest) : Bool :=
  request.get.has (bytes "ajax") &&
    !(request.get.has (bytes "print") && request.get.has (bytes "material")) &&
    !request.get.has (bytes "cabinet")

/-- The order and the kit that a request finds. -/
def selectedKit
    (server : Server) (db : Db) (role : Option Role) (request : HttpRequest) :
    Option OrderRow × Option KitRow :=
  match role with
  | none => (none, none)
  | some _ =>
      (selectCurrent (request.get.value (bytes "order_id"))
        (request.get.value (bytes "kit_id"))).eval (perform server) db

/-- The orders of the documents that a call posts to a kit. -/
def callOrders
    (runtime : Runtime) (request : HttpRequest) :
    Option OrderRow × Option KitRow → List (Order GroupKey Int)
  | (some order, some kit) =>
      if request.synchronises then
        (postedRequests runtime request.post).flatMap
          (SyncRequest.orders order.id kit.id)
      else
        []
  | _ => []

/-- No script is loaded: there is no role, or no script is posted. -/
def LoadsNothing
    (server : Server) (db : Db) (request : HttpRequest) (session : Session) :
    Prop :=
  requestRole server db request session = none ∨
    request.post.has (bytes "code") = false

section

variable {server : Server} {runtime : Runtime} {db : Db}
variable {request : HttpRequest}

theorem ajax_serves
    (identified : db.GroupsIdentified) (known : ClassesKnown db)
    (isCall : request.get.has (bytes "ajax") = true)
    (order : Option OrderRow) (kit : Option KitRow) :
    Kept db ((ajax runtime request order kit).exec (perform server) db) ∧
      Follows (Serves db.plan db.labels)
        (callOrders runtime request (order, kit)) db.holdings
        ((ajax runtime request order kit).exec
          (perform server) db).holdings := by
  have idle :
      ∀ {α : Type} {program : Php α}, MovesNothing program →
        request.synchronises = false ∨ order = none ∨ kit = none →
          Kept db (program.exec (perform server) db) ∧
            Follows (Serves db.plan db.labels)
              (callOrders runtime request (order, kit)) db.holdings
              (program.exec (perform server) db).holdings := by
    intro α program still unasked
    have same := still.exec server db
    have noOrders : callOrders runtime request (order, kit) = [] := by
      rcases unasked with noCall | rfl | rfl
      · cases order <;> cases kit <;> simp [callOrders, noCall]
      · rfl
      · cases order <;> rfl
    rw [noOrders, same.holdings]
    exact ⟨same.kept identified known, .nil _⟩
  simp only [ajax]
  split
  next material _ isPrint isMaterial =>
    refine idle ?_ (Or.inl ?_)
    · exact
        Program.issues_bind (Program.issues_issue rfl)
          (fun _ => Program.issues_pure _ _)
    · simp [HttpRequest.synchronises, Params.has, isPrint, isMaterial]
  next noPrint =>
    split
    next cabinet =>
      refine idle ?_ (Or.inl ?_)
      · exact
          Program.issues_bind (Program.issues_issue rfl)
            (fun _ => Program.issues_pure _ _)
      · simp [HttpRequest.synchronises, cabinet]
    next noCabinet =>
      split
      next order kit =>
        have asked : request.synchronises = true := by
          have isNoPrint :
              (request.get.has (bytes "print") &&
                request.get.has (bytes "material")) = false := by
            cases print : request.get.value (bytes "print") with
            | none => simp [Params.has, print]
            | some first =>
                cases material : request.get.value (bytes "material") with
                | none => simp [Params.has, material]
                | some second => exact absurd material (noPrint _ _ print)
          simp [HttpRequest.synchronises, isCall, isNoPrint, noCabinet]
        have served :=
          syncKit_serves server identified known order.id kit.id
            (postedRequests runtime request.post)
        rw [Program.exec_bind]
        simp only [callOrders, asked, if_true]
        exact served
      next missing =>
        refine idle (Program.issues_pure _ _) (Or.inr ?_)
        cases order with
        | none => exact Or.inl rfl
        | some order =>
            cases kit with
            | none => exact Or.inr rfl
            | some kit => exact absurd rfl (missing order kit rfl)

theorem dispatch_serves
    (identified : db.GroupsIdentified) (known : ClassesKnown db)
    (role : Option Role) (order : Option OrderRow) (kit : Option KitRow)
    (messages : List Message) :
    Kept db
        ((dispatch runtime request role (order, kit) messages).exec
          (perform server) db) ∧
      Follows (Serves db.plan db.labels)
        (callOrders runtime request (order, kit)) db.holdings
        ((dispatch runtime request role (order, kit) messages).exec
          (perform server) db).holdings := by
  by_cases isCall : request.get.has (bytes "ajax") = true
  · have served :=
      @ajax_serves server runtime db request identified known isCall order kit
    simp only [dispatch, isCall, if_true]
    rw [Program.exec_bind]
    exact served
  · have noOrders : callOrders runtime request (order, kit) = [] := by
      have noCall : request.synchronises = false := by
        simp [HttpRequest.synchronises, isCall]
      cases order <;> cases kit <;> simp [callOrders, noCall]
    have still :
        MovesNothing
          (dispatch runtime request role (order, kit) messages) := by
      simp only [dispatch, isCall, Bool.false_eq_true, if_false]
      split
      · exact Program.issues_pure _ _
      · exact
          Program.issues_bind (display_movesNothing _ _ _ _ _)
            (fun _ => Program.issues_pure _ _)
    have same := still.exec server db
    rw [noOrders, same.holdings]
    exact ⟨same.kept identified known, .nil _⟩

/-- A request that loads no script comes to its dispatch with the kit that it
selects, and with the store unchanged. -/
theorem exec_index_of_loadsNothing
    {session : Session} (harmless : LoadsNothing server db request session) :
    ∃ messages,
      (index runtime request session).exec (perform server) db =
        (dispatch runtime request (requestRole server db request session)
          (selectedKit server db (requestRole server db request session)
            request)
          messages).exec (perform server) db := by
  simp only [index]
  rw [Program.exec_bind, Program.exec_bind, Program.exec_bind,
    eval_authenticate,
    exec_of_reads (authenticate_reads request session) server db]
  cases isRole : requestRole server db request session with
  | none => exact ⟨_, rfl⟩
  | some role =>
      have noCode : request.post.value (bytes "code") = none := by
        rcases harmless with noRole | absent
        · rw [isRole] at noRole
          cases noRole
        · exact Option.isNone_iff_eq_none.mp (by simpa [Params.has] using absent)
      simp only [prepare, operations, noCode]
      rw [Program.exec_bind, Program.eval_bind,
        exec_of_reads (selectCurrent_reads _ _) server db]
      exact ⟨_, rfl⟩

/-- The orders of a request. -/
def requestOrders
    (server : Server) (runtime : Runtime) (db : Db) (request : HttpRequest)
    (session : Session) : List (Order GroupKey Int) :=
  callOrders runtime request
    (selectedKit server db (requestRole server db request session) request)

/-- A request that loads no script serves its orders. -/
theorem index_serves
    {session : Session} (identified : db.GroupsIdentified)
    (known : ClassesKnown db)
    (harmless : LoadsNothing server db request session) :
    Kept db ((index runtime request session).exec (perform server) db) ∧
      Follows (Serves db.plan db.labels)
        (requestOrders server runtime db request session) db.holdings
        ((index runtime request session).exec
          (perform server) db).holdings := by
  obtain ⟨messages, executed⟩ :=
    @exec_index_of_loadsNothing server runtime db request session harmless
  rw [executed, requestOrders]
  exact dispatch_serves identified known _ _ _ messages

end

/-! ## Many sessions -/

/-- The database, and the variables of all sessions. -/
structure Portal (ι : Type) where
  db : Db
  sessions : ι → Session

section

variable {ι : Type} [DecidableEq ι]

/-- One request of some session. -/
def Portal.step
    (server : Server) (runtime : Runtime) (portal : Portal ι)
    (visit : ι × HttpRequest) : Portal ι where
  db :=
    (index runtime visit.2 (portal.sessions visit.1)).exec
      (perform server) portal.db
  sessions :=
    Function.update portal.sessions visit.1
      ((index runtime visit.2 (portal.sessions visit.1)).eval
        (perform server) portal.db).session

/-- The orders of the next request. -/
def Portal.orders
    (server : Server) (runtime : Runtime) (portal : Portal ι)
    (visit : ι × HttpRequest) : List (Order GroupKey Int) :=
  requestOrders server runtime portal.db visit.2 (portal.sessions visit.1)

/-- The next request loads no script. -/
def Portal.Harmless
    (server : Server) (portal : Portal ι) (visit : ι × HttpRequest) : Prop :=
  LoadsNothing server portal.db visit.2 (portal.sessions visit.1)

theorem visits_kept
    (server : Server) (runtime : Runtime) (portal : Portal ι)
    (identified : portal.db.GroupsIdentified)
    (known : ClassesKnown portal.db) {visits : List (ι × HttpRequest)}
    (harmless :
      EveryStep (Portal.step server runtime) (Portal.Harmless server) portal
        visits) :
    EveryState (Portal.step server runtime)
      (fun current => Kept portal.db current.db) portal visits := by
  have preserved :
      ∀ (current : Portal ι) (visit : ι × HttpRequest),
        Kept portal.db current.db → current.Harmless server visit →
          Kept portal.db (current.step server runtime visit).db :=
    fun current visit kept isHarmless =>
      kept.trans (index_serves kept.identified kept.known isHarmless).1
  exact
    everyState_invariant _ preserved (kept_refl identified known) harmless

/-- Requests that load no script, of any sessions and in any order, serve the
orders of the documents that they post, one after the other. -/
theorem visits_serve
    (server : Server) (runtime : Runtime) (portal : Portal ι)
    (identified : portal.db.GroupsIdentified)
    (known : ClassesKnown portal.db) (visits : List (ι × HttpRequest))
    (harmless :
      EveryStep (Portal.step server runtime) (Portal.Harmless server) portal
        visits) :
    Follows (Serves portal.db.plan portal.db.labels)
      (gathered (Portal.step server runtime) (Portal.orders server runtime)
        portal visits)
      portal.db.holdings
      (runActions (Portal.step server runtime) portal
        visits).db.holdings := by
  apply
    @runActions_follows _ _ _ _ _ (Portal.step server runtime)
      (Portal.Harmless server) (fun current => current.db.holdings)
      (Portal.orders server runtime)
      (fun current => Kept portal.db current.db) _ portal visits
      (kept_refl identified known) harmless
  intro current visit kept isHarmless
  obtain ⟨keptNext, served⟩ :=
    @index_serves server runtime current.db visit.2
      (current.sessions visit.1) kept.identified kept.known isHarmless
  rw [kept.plan, kept.labels] at served
  exact ⟨kept.trans keptNext, served⟩

/-- The document of a row that asks for two items. -/
def twoItems : Bytes :=
  123 :: bytes "\"id\":0,\"value\":2,\"tag\":false,\"status\":-1" ++ [125]

/-- A runtime that decodes this document. -/
def Runtime.twoItems : Runtime :=
  { Runtime.plain with
    jsonDecode := fun document =>
      if document = Web.twoItems then
        some
          (.object
            [(bytes "id", .int 0), (bytes "value", .int 2),
              (bytes "tag", .bool false), (bytes "status", .int (-1))])
      else
        none }

/-- The call that posts the document to the kit. -/
def twoItemsCall : HttpRequest where
  get :=
    [(bytes "ajax", .text (bytes "1")),
      (bytes "order_id", .text (bytes "1")),
      (bytes "kit_id", .text (bytes "0"))]
  post := [(bytes "requests", .array [.text twoItems])]
  request := []

/-- Bob has logged in, and somebody else has not. -/
def staffedPortal : Portal Bool where
  db := staffed
  sessions := fun client => if client then bobSession else Session.fresh

theorem identified_staffed : staffed.GroupsIdentified :=
  (by decide : (staffed.groups.map GroupRow.key).Nodup)

theorem known_staffed : ClassesKnown staffed :=
  (by decide :
    ∀ group ∈ staffed.groups,
      ∃ row ∈ staffed.classes.rows, row.id = group.classId)

theorem harmless_twoItems :
    EveryStep (Portal.step Server.plain Runtime.twoItems)
      (Portal.Harmless Server.plain) staffedPortal
      [(false, twoItemsCall), (true, twoItemsCall)] :=
  ⟨Or.inr rfl, Or.inr rfl, trivial⟩

theorem visits_serve_twoItems :
    Follows (Serves staffed.plan staffed.labels)
      (gathered (Portal.step Server.plain Runtime.twoItems)
        (Portal.orders Server.plain Runtime.twoItems) staffedPortal
        [(false, twoItemsCall), (true, twoItemsCall)])
      staffed.holdings
      (runActions (Portal.step Server.plain Runtime.twoItems) staffedPortal
        [(false, twoItemsCall), (true, twoItemsCall)]).db.holdings :=
  visits_serve Server.plain Runtime.twoItems staffedPortal identified_staffed
    known_staffed [(false, twoItemsCall), (true, twoItemsCall)]
    harmless_twoItems

/-- Only Bob's call takes two items. -/
example :
    (runActions (Portal.step Server.plain Runtime.twoItems) staffedPortal
        [(false, twoItemsCall), (true, twoItemsCall)]).db.groups.map
        GroupRow.count = [2, 0] := by
  decide

/-! ## Where counts come from -/

/-- The kit that a request selects has the numbers that the request gives. -/
theorem selectedKit_eq_some
    {server : Server} {db : Db} {role : Option Role} {request : HttpRequest}
    {order : OrderRow} {kit : KitRow}
    (selected :
      selectedKit server db role request = (some order, some kit)) :
    role.isSome = true ∧
      (request.get.value (bytes "order_id")).map Param.intval =
        some order.id ∧
      (request.get.value (bytes "kit_id")).map Param.intval = some kit.id := by
  cases role with
  | none => cases selected
  | some role =>
      simp only [selectedKit, selectCurrent] at selected
      cases isOrder : request.get.value (bytes "order_id") with
      | none =>
          rw [isOrder] at selected
          cases selected
      | some orderParam =>
          rw [isOrder] at selected
          dsimp only at selected
          rw [Program.eval_bind] at selected
          have found :
              (query (.findOrder orderParam.intval)).eval (perform server) db =
                db.orders.lookup orderParam.intval := rfl
          rw [found] at selected
          cases isRow : db.orders.lookup orderParam.intval with
          | none =>
              rw [isRow] at selected
              cases selected
          | some row =>
              rw [isRow] at selected
              cases isKit : request.get.value (bytes "kit_id") with
              | none =>
                  rw [isKit] at selected
                  cases selected
              | some kitParam =>
                  rw [isKit] at selected
                  dsimp only at selected
                  rw [Program.eval_bind] at selected
                  obtain ⟨sameOrder, isFound⟩ := Prod.mk.inj selected
                  rw [Option.some.inj sameOrder] at isRow
                  have named := List.find?_some isFound
                  simp only [decide_eq_true_eq] at named
                  refine ⟨rfl, ?_, ?_⟩
                  · exact
                      congrArg some (SerialTable.mem_of_lookup isRow).2.symm
                  · exact congrArg some named.2.symm

/-- The request is executed under a role, and posts a document with the value
for the group. -/
def PostsCount
    (server : Server) (runtime : Runtime) (portal : Portal ι)
    (visit : ι × HttpRequest) (key : GroupKey) (value : Int) : Prop :=
  (requestRole server portal.db visit.2
      (portal.sessions visit.1)).isSome = true ∧
    visit.2.synchronises = true ∧
    (visit.2.get.value (bytes "order_id")).map Param.intval =
      some key.orderId ∧
    (visit.2.get.value (bytes "kit_id")).map Param.intval = some key.kitId ∧
    ∃ tag, .row key.id value tag ∈ postedRequests runtime visit.2.post

omit [DecidableEq ι] in
theorem postsCount_of_order
    {server : Server} {runtime : Runtime} {portal : Portal ι}
    {visit : ι × HttpRequest} {key : GroupKey} {value : Int}
    (given : .move key value ∈ portal.orders server runtime visit) :
    PostsCount server runtime portal visit key value := by
  simp only [Portal.orders, requestOrders] at given
  rcases selected :
      selectedKit server portal.db
        (requestRole server portal.db visit.2 (portal.sessions visit.1))
        visit.2 with
    ⟨_ | order, _ | kit⟩
  · rw [selected] at given
    cases given
  · rw [selected] at given
    cases given
  · rw [selected] at given
    cases given
  · rw [selected] at given
    simp only [callOrders] at given
    split at given
    next asked =>
      obtain ⟨hasRole, isOrder, isKit⟩ := selectedKit_eq_some selected
      obtain ⟨document, posted, ordered⟩ := List.mem_flatMap.mp given
      cases document with
      | status status => cases ordered
      | row id amount tag =>
          have isMove :
              key = ⟨order.id, kit.id, id⟩ ∧ value = amount := by
            cases tag <;> simpa [SyncRequest.orders] using ordered
          obtain ⟨rfl, rfl⟩ := isMove
          exact ⟨hasRole, asked, isOrder, isKit, tag, posted⟩
    next => cases given

/-- Whoever sends requests that load no script: a count that a group did not
have at the beginning was posted for it, under a role. -/
theorem counts_posted
    (server : Server) (runtime : Runtime) (portal : Portal ι)
    (identified : portal.db.GroupsIdentified)
    (known : ClassesKnown portal.db) (visits : List (ι × HttpRequest))
    (harmless :
      EveryStep (Portal.step server runtime) (Portal.Harmless server) portal
        visits) :
    ∀ group ∈
        (runActions (Portal.step server runtime) portal visits).db.groups,
      ∃ source ∈ portal.db.groups,
        source.key = group.key ∧
          (group.count = source.count ∨
            ∃ before visit after,
              visits = before ++ visit :: after ∧
                PostsCount server runtime
                  (runActions (Portal.step server runtime) portal before)
                  visit group.key group.count) := by
  intro group member
  have kept :
      Kept portal.db
        (runActions (Portal.step server runtime) portal visits).db := by
    have everywhere :=
      visits_kept server runtime portal identified known harmless
    rw [← List.append_nil visits] at everywhere
    exact everywhere.visited
  have served :=
    visits_serve server runtime portal identified known visits harmless
  have present : group.key ∈ portal.db.plan.places := by
    rw [← kept.plan]
    exact Db.mem_places.mpr ⟨group, member, rfl⟩
  obtain ⟨source, sourceMember, sameKey⟩ := Db.mem_places.mp present
  refine ⟨source, sourceMember, sameKey, ?_⟩
  have amounts := amount_of_follows served group.key
  rw [count_of_holdings kept.identified member, ← sameKey,
    count_of_holdings identified sourceMember] at amounts
  rcases amounts with same | ordered
  · exact Or.inl same
  · obtain ⟨before, visit, after, split, given⟩ := mem_gathered ordered
    rw [← sameKey]
    exact Or.inr ⟨before, visit, after, split, postsCount_of_order given⟩

/-- The calls have changed a count. -/
theorem counts_posted_twoItems :
    (runActions (Portal.step Server.plain Runtime.twoItems) staffedPortal
            [(false, twoItemsCall), (true, twoItemsCall)]).db.groups.map
          (fun group => group.count) =
        [2, 0] ∧
      ∀ group ∈
          (runActions (Portal.step Server.plain Runtime.twoItems)
            staffedPortal
            [(false, twoItemsCall), (true, twoItemsCall)]).db.groups,
        ∃ source ∈ staffed.groups,
          source.key = group.key ∧
            (group.count = source.count ∨
              ∃ before visit after,
                [(false, twoItemsCall), (true, twoItemsCall)] =
                    before ++ visit :: after ∧
                  PostsCount Server.plain Runtime.twoItems
                    (runActions (Portal.step Server.plain Runtime.twoItems)
                      staffedPortal before)
                    visit group.key group.count) :=
  ⟨by decide,
    counts_posted Server.plain Runtime.twoItems staffedPortal
      identified_staffed known_staffed
      [(false, twoItemsCall), (true, twoItemsCall)] harmless_twoItems⟩

end

end LtlsKitting.Web
