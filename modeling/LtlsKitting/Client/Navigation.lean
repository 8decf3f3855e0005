import LtlsKitting.Client.Wire

/-!
# The links of the pages

Every page of a session with a role links to the first page and to the logout,
the pages of the kitting also to each other.  The order and the kit of a link
are numbers in its URL, so that a link can be followed long after the page was
sent.  No request but a script removes an order or a kit, so a link leads to
the page that it names, whatever other sessions do in between.
-/

namespace LtlsKitting.Client

open LtlsKitting.Php LtlsKitting.Store LtlsKitting.Operations
open LtlsKitting.Formats LtlsKitting.Web LtlsKitting.Interaction
open LtlsKitting.Relational

/-! ## Links -/

inductive Link where
  | home
  | logout
  | kitting
  | storage
  | init
  | order (orderId : Int)
  | kit (orderId kitId : Int)
  deriving DecidableEq, Repr

/-- The URL of a link. -/
def Link.href : Link → Bytes
  | .home => bytes "/"
  | .logout => bytes "/?logout="
  | .kitting => bytes "/?scenario=kitting"
  | .storage => bytes "/?scenario=storage"
  | .init => bytes "/?scenario=init"
  | .order orderId =>
      bytes "/?scenario=kitting&order_id=" ++ decimal orderId
  | .kit orderId kitId =>
      bytes "/?scenario=kitting&order_id=" ++ decimal orderId ++
        bytes "&kit_id=" ++ decimal kitId

/-- The links of `display.php`. -/
def headerLinks (userinfo : Option Bytes) : List Link :=
  (if userinfo.isSome then [.logout] else []) ++ [.home]

/-- The links of the page below the messages. -/
def contentLinks : Content → List Link
  | .overview initLink =>
      [.kitting, .storage] ++ if initLink then [.init] else []
  | .kitting orders => orders.map (fun order => .order order.id)
  | .order orderId kits =>
      .kitting :: kits.map (fun entry => .kit orderId entry.1.id)
  | .kit orderId _ _ => [.kitting, .order orderId]
  | .login | .initForm | .nothing => []

/-- What the pages show, apart from the data on them. -/
inductive Place where
  | first
  | kitting
  | order (orderId : Int)
  | kit (orderId kitId : Int)
  | initForm
  | login
  deriving DecidableEq, Repr

def placeOf : Content → Option Place
  | .login => some .login
  | .kit orderId kitId _ => some (.kit orderId kitId)
  | .order orderId _ => some (.order orderId)
  | .kitting _ => some .kitting
  | .initForm => some .initForm
  | .nothing => none
  | .overview _ => some .first

/-- The place that a link names.  There is no page for the storage; its link
leads to the first page. -/
def Link.target : Link → Place
  | .home | .storage => .first
  | .logout => .login
  | .kitting => .kitting
  | .init => .initForm
  | .order orderId => .order orderId
  | .kit orderId kitId => .kit orderId kitId

/-! ## Following a link -/

/-- The fields in the URL of a link. -/
def Link.fields : Link → List (Bytes × Bytes)
  | .home => []
  | .logout => [(bytes "logout", [])]
  | .kitting => [(bytes "scenario", bytes "kitting")]
  | .storage => [(bytes "scenario", bytes "storage")]
  | .init => [(bytes "scenario", bytes "init")]
  | .order orderId =>
      [(bytes "scenario", bytes "kitting"), (bytes "order_id", decimal orderId)]
  | .kit orderId kitId => kitFields orderId kitId

theorem Link.fields_names (link : Link) :
    (∀ entry ∈ link.fields, isPlainName entry.1 = true) ∧
      (link.fields.map Prod.fst).Nodup ∧ link.fields.length ≤ 4 := by
  have plain :
      [bytes "scenario", bytes "order_id", bytes "kit_id",
        bytes "logout"].all isPlainName = true := by
    decide
  have names :
      ∀ entry ∈ link.fields,
        entry.1 ∈ [bytes "scenario", bytes "order_id", bytes "kit_id",
          bytes "logout"] := by
    cases link <;> simp [Link.fields, kitFields]
  refine ⟨?_, ?_, ?_⟩
  · intro entry member
    exact List.all_eq_true.mp plain entry.1 (names entry member)
  · cases link <;> (simp only [Link.fields, kitFields, List.map]; decide)
  · cases link <;> (simp only [Link.fields, kitFields, List.length]; decide)

/-- The URL of a link is the one of its fields. -/
theorem Link.href_eq {link : Link} (away : link ≠ .home) :
    link.href = bytes "/" ++ 63 :: queryText link.fields := by
  have kitting : urlencode (bytes "kitting") = bytes "kitting" := by decide
  cases link with
  | home => exact absurd rfl away
  | logout => decide
  | kitting => decide
  | storage => decide
  | init => decide
  | order orderId =>
      have front :
          bytes "/?scenario=kitting&order_id=" =
            bytes "/" ++ 63 :: (bytes "scenario" ++ 61 :: bytes "kitting" ++
              [38] ++ bytes "order_id" ++ [61]) := by
        decide
      simp only [Link.href, front, queryText, Link.fields, List.map_cons,
        List.map_nil, kitting, urlencode_decimal, implode,
        List.intercalate_cons_cons, List.intercalate_singleton,
        List.append_assoc, List.cons_append, List.nil_append]
  | kit orderId kitId =>
      have front :
          bytes "/?scenario=kitting&order_id=" =
            bytes "/" ++ 63 :: bytes "scenario=kitting&order_id=" := by
        decide
      simp only [Link.fields]
      rw [← kitQuery_eq, kitQuery, Link.href, front]
      simp only [List.append_assoc, List.cons_append]

section

variable {limit : Nat}

/-- The URL of a link holds the fields of the link. -/
theorem formParams_href (enough : 4 ≤ limit) (link : Link) :
    formParams limit (locationQuery link.href) = textParams link.fields := by
  by_cases isHome : link = .home
  · rw [isHome]
    have noQuery : locationQuery (Link.href .home) = [] := by decide
    rw [noQuery]
    exact formParams_nil limit
  · obtain ⟨plain, different, few⟩ := link.fields_names
    have given : link.fields ≠ [] := by
      cases link <;>
        first | exact absurd rfl isHome | exact List.cons_ne_nil _ _
    have front : 35 ∉ bytes "/" ∧ 63 ∉ bytes "/" := by decide
    have whole : 35 ∉ bytes "/" ++ 63 :: queryText link.fields := by
      rw [List.mem_append, List.mem_cons, not_or, not_or]
      exact ⟨front.1, by decide, not_mem_queryText plain⟩
    rw [locationQuery, Link.href_eq isHome, splitPair_of_not_mem whole,
      splitPair_append front.2]
    exact formParams_queryText plain different (few.trans enough) given

theorem followRedirect_href (enough : 4 ≤ limit) (link : Link) :
    followRedirect limit link.href =
      { get := textParams link.fields
        post := []
        request := textParams link.fields } := by
  rw [followRedirect, formParams_href enough]

end

/-! ## The page of a link -/

/-- The numbers of a link are ones that the server can cast. -/
def Link.InRange : Link → Prop
  | .order orderId => Machine orderId
  | .kit orderId kitId => Machine orderId ∧ Machine kitId
  | _ => True

/-- The order and the kit that a link selects. -/
def selectedBy (db : Db) : Link → Option OrderRow × Option KitRow
  | .order orderId => (db.orders.lookup orderId, none)
  | .kit orderId kitId =>
      (db.orders.lookup orderId,
        (db.orders.lookup orderId).bind
          (fun _ => db.findKit orderId kitId))
  | _ => (none, none)

section

variable {server : Server} {runtime : Runtime} {db : Db}
variable {session : Session} {limit : Nat} {link : Link}

theorem eval_selectCurrent_order (order : Param) :
    (selectCurrent (some order) none).eval (perform server) db =
      (db.orders.lookup order.intval, none) := by
  have found :
      (query (.findOrder order.intval)).eval (perform server) db =
        db.orders.lookup order.intval := rfl
  simp only [selectCurrent]
  rw [Program.eval_bind, found]
  cases db.orders.lookup order.intval <;> rfl

theorem eval_selectCurrent_link (inRange : link.InRange) :
    (selectCurrent ((textParams link.fields).value (bytes "order_id"))
          ((textParams link.fields).value (bytes "kit_id"))).eval
        (perform server) db =
      selectedBy db link := by
  cases link with
  | home => rfl
  | logout => rfl
  | kitting => rfl
  | storage => rfl
  | init => rfl
  | order orderId =>
      have selected :=
        @eval_selectCurrent_order server db (.text (decimal orderId))
      rw [Param.intval, intval_decimal inRange] at selected
      exact selected
  | kit orderId kitId =>
      have selected :=
        @eval_selectCurrent server db (.text (decimal orderId))
          (.text (decimal kitId))
      rw [Param.intval, Param.intval, intval_decimal inRange.1,
        intval_decimal inRange.2] at selected
      exact selected

/-- In a session with a role, a link shows the page that `pages.php`
chooses. -/
theorem index_link
    {role : Role} (isRole : sessionRole server db session = some role)
    (enough : 4 ≤ limit) (staying : link ≠ .logout)
    (inRange : link.InRange) :
    (index runtime (followRedirect limit link.href) session).exec
          (perform server) db =
        (pages role (textParams link.fields) (selectedBy db link).1
          (selectedBy db link).2).exec (perform server) db ∧
      ∃ alerts,
        (index runtime (followRedirect limit link.href) session).eval
            (perform server) db =
          { role := some role
            reply :=
              .page (some role.name) alerts
                ((pages role (textParams link.fields) (selectedBy db link).1
                  (selectedBy db link).2).eval (perform server) db)
            session :=
              { session.settle (some role) with messages := some [] } } := by
  have noLogout : (textParams link.fields).has (bytes "logout") = false := by
    cases link <;> first | exact absurd rfl staying | rfl
  have noCall : (textParams link.fields).has (bytes "ajax") = false := by
    cases link <;> rfl
  have granted :
      requestRole server db
          { get := textParams link.fields
            post := []
            request := textParams link.fields } session =
        some role := by
    rw [requestRole_of_session noLogout rfl, isRole]
  rw [followRedirect_href enough]
  obtain ⟨messages, executed, outcome⟩ :=
    @index_of_selected server runtime db session
      { get := textParams link.fields
        post := []
        request := textParams link.fields }
      rfl _ (eval_selectCurrent_link inRange) role granted
  rw [executed, outcome]
  simp only [dispatch, noCall, Bool.false_eq_true, if_false, List.isEmpty_nil,
    Bool.not_true, Bool.false_and, display, pageContent]
  refine ⟨?_, messages.map Alert.ofMessage, ?_⟩
  · rw [Program.exec_bind, Program.exec_bind]
    rfl
  · rw [Program.eval_bind, Program.eval_bind]
    rfl

end

/-! ## A browser among other sessions -/

/-- A browser with the page that it shows, and the store behind it. -/
structure Browsing where
  db : Db
  session : Session
  userinfo : Option Bytes
  content : Content

def Browsing.links (state : Browsing) : List Link :=
  headerLinks state.userinfo ++ contentLinks state.content

/-- The page of a link that was followed. -/
def Browsing.follow
    (server : Server) (runtime : Runtime) (limit : Nat)
    (state : Browsing) (link : Link) : Browsing :=
  let program := index runtime (followRedirect limit link.href) state.session
  let outcome := program.eval (perform server) state.db
  match outcome.reply with
  | .page userinfo _ content =>
      { db := program.exec (perform server) state.db
        session := outcome.session
        userinfo := userinfo
        content := content }
  | _ =>
      { state with
        db := program.exec (perform server) state.db
        session := outcome.session }

/-- The browser follows the link at a place of its page, or the server
answers the request of another session. -/
inductive BrowserAction where
  | click (place : Nat)
  | other (request : HttpRequest) (session : Session)

/-- Another session posts no script. -/
def BrowserAction.Harmless : BrowserAction → Prop
  | .click _ => True
  | .other request _ => request.post.has (bytes "code") = false

instance BrowserAction.decidableHarmless (action : BrowserAction) :
    Decidable action.Harmless :=
  match action with
  | .click _ => inferInstanceAs (Decidable True)
  | .other request _ =>
      inferInstanceAs
        (Decidable (request.post.has (bytes "code") = false))

def Browsing.step
    (server : Server) (runtime : Runtime) (limit : Nat)
    (state : Browsing) : BrowserAction → Browsing
  | .click place =>
      match state.links[place]? with
      | some link => state.follow server runtime limit link
      | none => state
  | .other request session =>
      { state with
        db := (index runtime request session).exec (perform server) state.db }

/-- The browser opens the first page. -/
def Browsing.opened
    (server : Server) (runtime : Runtime) (limit : Nat)
    (db : Db) (session : Session) : Browsing :=
  Browsing.follow server runtime limit
    { db := db, session := session, userinfo := none, content := .nothing }
    .home

/-! ## What stays in the store -/

/-- The orders, the numbers of the kits and the users of one store are those
of another one. -/
structure SamePlaces (before after : Db) : Prop where
  orders : after.orders = before.orders
  kits : after.kits.map KitRow.key = before.kits.map KitRow.key
  users : after.users = before.users

theorem SamePlaces.trans {first second third : Db}
    (earlier : SamePlaces first second) (later : SamePlaces second third) :
    SamePlaces first third :=
  ⟨later.orders.trans earlier.orders, later.kits.trans earlier.kits,
    later.users.trans earlier.users⟩

theorem findKit_isSome_iff {db : Db} {orderId kitId : Int} :
    (db.findKit orderId kitId).isSome = true ↔
      (orderId, kitId) ∈ db.kits.map KitRow.key := by
  simp only [Db.findKit, List.find?_isSome, List.mem_map, decide_eq_true_eq,
    KitRow.key, Prod.mk.injEq]

theorem samePlaces_perform
    {server : Server} {effect : Effect} (keeps : effect.loads = false)
    (db : Db) : SamePlaces db (perform server effect db).2 := by
  cases effect with
  | setStatus orderId kitId status =>
      exact ⟨rfl, map_updateWhere (fun _ _ _ => rfl), rfl⟩
  | assignKit userId kitId =>
      exact ⟨rfl, map_updateWhere (fun _ _ _ => rfl), rfl⟩
  | _ => first | exact ⟨rfl, rfl, rfl⟩ | cases keeps

/-- A request that posts no script keeps them. -/
theorem samePlaces_index
    {server : Server} {runtime : Runtime} {request : HttpRequest}
    (noCode : request.post.has (bytes "code") = false) (session : Session)
    (db : Db) :
    SamePlaces db
      ((index runtime request session).exec (perform server) db) := by
  have kept :
      ∀ effect (current : Db), effect.loads = false →
        SamePlaces db current →
          SamePlaces db (perform server effect current).2 := by
    intro effect current keeps same
    exact same.trans (samePlaces_perform keeps current)
  exact (index_keepsTables runtime noCode session).exec kept ⟨rfl, rfl, rfl⟩

/-- The names and the numbers in the store are ones that come back in a
request. -/
structure Linkable (server : Server) (db : Db) : Prop where
  names : NamesValid server db
  orders : ∀ order ∈ db.orders.rows, Machine order.id
  kits : ∀ kit ∈ db.kits, Machine kit.id

theorem Linkable.congr {server : Server} {before after : Db}
    (linkable : Linkable server before) (same : SamePlaces before after) :
    Linkable server after := by
  refine ⟨?_, ?_, ?_⟩
  · intro row member
    rw [same.users] at member
    exact linkable.names row member
  · rw [same.orders]
    exact linkable.orders
  · intro kit member
    have listed : kit.key ∈ before.kits.map KitRow.key := by
      rw [← same.kits]
      exact List.mem_map_of_mem member
    obtain ⟨old, known, sameKey⟩ := List.mem_map.mp listed
    have same : old.id = kit.id := congrArg Prod.snd sameKey
    rw [← same]
    exact linkable.kits old known

/-! ## Pages without dead links -/

/-- What a link names is there. -/
def Link.Alive (server : Server) (db : Db) (session : Session) : Link → Prop
  | .order orderId => (db.orders.lookup orderId).isSome = true
  | .kit orderId kitId =>
      (db.orders.lookup orderId).isSome = true ∧
        (db.findKit orderId kitId).isSome = true
  | .init => sessionRole server db session = some Role.admin
  | _ => True

/-- The page of a browser shows whether its session has a role, and its links
are alive. -/
structure Browsing.Sound (server : Server) (state : Browsing) : Prop where
  linkable : Linkable server state.db
  recognised :
    (sessionRole server state.db state.session).isSome =
      state.userinfo.isSome
  alive :
    ∀ link ∈ state.links, link.Alive server state.db state.session

section

variable {server : Server} {runtime : Runtime} {limit : Nat}
variable {state : Browsing} {link : Link}

theorem Link.Alive.inRange
    (alive : link.Alive server state.db state.session)
    (linkable : Linkable server state.db) : link.InRange := by
  have ordered :
      ∀ {orderId : Int}, (state.db.orders.lookup orderId).isSome = true →
        Machine orderId := by
    intro orderId found
    obtain ⟨order, isOrder⟩ := Option.isSome_iff_exists.mp found
    obtain ⟨member, rfl⟩ := SerialTable.mem_of_lookup isOrder
    exact linkable.orders order member
  cases link with
  | order orderId => exact ordered alive
  | kit orderId kitId =>
      obtain ⟨kit, member, sameKey⟩ :=
        List.mem_map.mp (findKit_isSome_iff.mp alive.2)
      refine ⟨ordered alive.1, ?_⟩
      have same : kit.id = kitId := congrArg Prod.snd sameKey
      rw [← same]
      exact linkable.kits kit member
  | _ => trivial

theorem Browsing.Sound.other
    (sound : state.Sound server) {request : HttpRequest}
    (noCode : request.post.has (bytes "code") = false) (session : Session) :
    (state.step server runtime limit (.other request session)).Sound
      server := by
  have same := @samePlaces_index server runtime request noCode session state.db
  have sameRole :=
    @sessionRole_congr server state.db state.session _ state.session
      same.users rfl rfl
  refine ⟨sound.linkable.congr same, ?_, ?_⟩
  · exact (congrArg Option.isSome sameRole).trans sound.recognised
  · intro link member
    have before := sound.alive link member
    cases link with
    | init => exact sameRole.trans before
    | order orderId =>
        simp only [Link.Alive, Browsing.step, same.orders] at before ⊢
        exact before
    | kit orderId kitId =>
        simp only [Link.Alive, Browsing.step, same.orders,
          findKit_isSome_iff, same.kits] at before ⊢
        exact before
    | _ => trivial

/-! ## One step -/

theorem Browsing.db_follow :
    (state.follow server runtime limit link).db =
      (index runtime (followRedirect limit link.href) state.session).exec
        (perform server) state.db := by
  simp only [Browsing.follow]
  split <;> rfl

theorem Browsing.samePlaces_follow :
    SamePlaces state.db (state.follow server runtime limit link).db := by
  rw [Browsing.db_follow]
  exact samePlaces_index rfl state.session state.db

/-- Without a role, or after a logout, the form of the login is shown. -/
theorem Browsing.follow_roleless
    (enough : 4 ≤ limit)
    (noRole :
      requestRole server state.db (followRedirect limit link.href)
          state.session =
        none) :
    (state.follow server runtime limit link).session.roleId = none ∧
      (state.follow server runtime limit link).userinfo = none ∧
      (state.follow server runtime limit link).content = .login := by
  obtain ⟨messages, _, replied⟩ :=
    @index_of_no_role server runtime state.db state.session _ noRole
  obtain ⟨left, sessions⟩ :=
    session_index server state.db runtime (followRedirect limit link.href)
      state.session
  have noCall :
      (followRedirect limit link.href).get.has (bytes "ajax") = false := by
    rw [followRedirect_href enough]
    cases link <;> rfl
  have screen :
      ((dispatch runtime (followRedirect limit link.href) none (none, none)
            messages).eval (perform server) state.db).1 =
        .page none (messages.map Alert.ofMessage) .login := by
    simp only [dispatch, noCall, Option.isSome_none, Bool.and_false,
      Bool.false_eq_true, if_false]
    rfl
  rw [screen] at replied
  rw [noRole] at sessions
  simp [Browsing.follow, replied, sessions, Session.settle]

/-- With a role, the page that `pages.php` chooses is shown. -/
theorem Browsing.follow_role
    {role : Role}
    (isRole : sessionRole server state.db state.session = some role)
    (enough : 4 ≤ limit) (staying : link ≠ .logout)
    (inRange : link.InRange) :
    (state.follow server runtime limit link).session =
        { state.session.settle (some role) with messages := some [] } ∧
      (state.follow server runtime limit link).userinfo = some role.name ∧
      (state.follow server runtime limit link).content =
        (pages role (textParams link.fields) (selectedBy state.db link).1
          (selectedBy state.db link).2).eval (perform server) state.db := by
  obtain ⟨_, alerts, outcome⟩ :=
    @index_link server runtime state.db state.session limit link role isRole
      enough staying inRange
  simp [Browsing.follow, outcome]

/-- What the page of a link shows. -/
def Link.ShownAs (db : Db) (role : Role) : Link → Content → Prop
  | .home, content | .storage, content => content = .overview role.isAdmin
  | .logout, content => content = .login
  | .kitting, content => content = .kitting db.listOrders
  | .init, content => content = .initForm
  | .order orderId, content =>
      content = .order orderId (db.listKits orderId)
  | .kit orderId kitId, content =>
      ∃ status, content = .kit orderId kitId status

theorem eval_pages_link
    {role : Role}
    (isRole : sessionRole server state.db state.session = some role)
    (staying : link ≠ .logout)
    (alive : link.Alive server state.db state.session) :
    link.ShownAs state.db role
      ((pages role (textParams link.fields) (selectedBy state.db link).1
        (selectedBy state.db link).2).eval (perform server) state.db) := by
  cases link with
  | home => rfl
  | logout => exact absurd rfl staying
  | kitting => rfl
  | storage => rfl
  | init =>
      rw [alive, Option.some.injEq] at isRole
      rw [← isRole]
      rfl
  | order orderId =>
      obtain ⟨order, isOrder⟩ := Option.isSome_iff_exists.mp alive
      have same := (SerialTable.mem_of_lookup isOrder).2
      have selected :
          selectedBy state.db (.order orderId) = (some order, none) := by
        rw [selectedBy, isOrder]
      rw [selected, Link.ShownAs, ← same]
      rfl
  | kit orderId kitId =>
      obtain ⟨order, isOrder⟩ := Option.isSome_iff_exists.mp alive.1
      obtain ⟨kit, isKit⟩ := Option.isSome_iff_exists.mp alive.2
      have sameOrder := (SerialTable.mem_of_lookup isOrder).2
      have sameKit : kit.id = kitId := by
        have found := List.find?_some isKit
        rw [decide_eq_true_eq] at found
        exact found.2
      have selected :
          selectedBy state.db (.kit orderId kitId) =
            (some order, some kit) := by
        simp only [selectedBy, isOrder, Option.bind_some, isKit]
      have kitting :
          (textParams (Link.fields (.kit orderId kitId))).hasValue
            (bytes "scenario") (bytes "kitting") = true := rfl
      rw [selected]
      simp only [pages, kitting, if_true]
      rw [eval_pageKit, sameKit]
      exact ⟨kit.status, congrArg (Content.kit · kitId kit.status) sameOrder⟩

/-- The pages list exactly the orders of the store. -/
theorem order_mem_links {db : Db} {orderId : Int} :
    .order orderId ∈ contentLinks (.kitting db.listOrders) ↔
      (db.orders.lookup orderId).isSome = true := by
  simp only [contentLinks, List.mem_map, Link.order.injEq, Db.listOrders,
    List.mem_insertionSort]
  constructor
  · rintro ⟨order, member, rfl⟩
    rw [SerialTable.lookup_eq_some member]
    rfl
  · intro found
    obtain ⟨order, isOrder⟩ := Option.isSome_iff_exists.mp found
    exact ⟨order, SerialTable.mem_of_lookup isOrder⟩

/-- The page of an order lists exactly its kits. -/
theorem kit_mem_links {db : Db} {orderId kitId : Int} :
    .kit orderId kitId ∈ contentLinks (.order orderId (db.listKits orderId)) ↔
      (db.findKit orderId kitId).isSome = true := by
  rw [findKit_isSome_iff]
  simp only [contentLinks, Db.listKits, List.map_map, List.mem_cons,
    reduceCtorEq, false_or, List.mem_map, Function.comp_apply,
    Link.kit.injEq, true_and, List.mem_insertionSort, List.mem_filter,
    decide_eq_true_eq, KitRow.key, Prod.mk.injEq]
  constructor
  · rintro ⟨kit, ⟨member, sameOrder⟩, sameKit⟩
    exact ⟨kit, member, sameOrder, sameKit⟩
  · rintro ⟨kit, member, sameOrder, sameKit⟩
    exact ⟨kit, ⟨member, sameOrder⟩, sameKit⟩

theorem Link.ShownAs.place {db : Db} {role : Role} {content : Content}
    (shown : link.ShownAs db role content) :
    placeOf content = some link.target := by
  cases link with
  | kit orderId kitId =>
      obtain ⟨status, rfl⟩ := shown
      rfl
  | _ =>
      rw [shown]
      rfl

/-- The links of the page are alive, in every store with the same orders and
kits. -/
theorem Link.ShownAs.alive {db after : Db} {role : Role} {content : Content}
    {session : Session} (shown : link.ShownAs db role content)
    {before : Session} (alive : link.Alive server db before)
    (same : SamePlaces db after)
    (admin : role.isAdmin = true →
      sessionRole server after session = some Role.admin) :
    ∀ other ∈ contentLinks content, other.Alive server after session := by
  intro other member
  have first :
      other ∈ contentLinks (.overview role.isAdmin) →
        other.Alive server after session := by
    intro known
    simp only [contentLinks, List.cons_append, List.nil_append,
      List.mem_cons] at known
    rcases known with rfl | rfl | known
    · trivial
    · trivial
    · split at known
      next isAdmin =>
        rw [List.mem_singleton] at known
        rw [known]
        exact admin isAdmin
      next => cases known
  cases link with
  | home => exact first (shown ▸ member)
  | storage => exact first (shown ▸ member)
  | logout =>
      rw [shown] at member
      cases member
  | init =>
      rw [shown] at member
      cases member
  | kitting =>
      rw [shown] at member
      obtain ⟨order, _, rfl⟩ := List.mem_map.mp member
      rw [Link.Alive, same.orders]
      exact order_mem_links.mp member
  | order orderId =>
      rw [shown] at member
      rcases List.mem_cons.mp member with rfl | listed
      · trivial
      · obtain ⟨entry, _, rfl⟩ := List.mem_map.mp listed
        rw [Link.Alive, same.orders, findKit_isSome_iff, same.kits,
          ← findKit_isSome_iff]
        exact ⟨alive, kit_mem_links.mp member⟩
  | kit orderId kitId =>
      obtain ⟨status, rfl⟩ := shown
      simp only [contentLinks, List.mem_cons, List.not_mem_nil,
        or_false] at member
      rcases member with rfl | rfl
      · trivial
      · rw [Link.Alive, same.orders]
        exact alive.1

/-- What a session with a role sees when it follows a link. -/
theorem Browsing.shown_follow
    (linkable : Linkable server state.db) (enough : 4 ≤ limit)
    (staying : link ≠ .logout)
    (alive : link.Alive server state.db state.session) {role : Role}
    (isRole : sessionRole server state.db state.session = some role) :
    link.ShownAs state.db role
      (state.follow server runtime limit link).content := by
  obtain ⟨_, _, content⟩ :=
    @Browsing.follow_role server runtime limit state link role isRole enough
      staying (alive.inRange linkable)
  rw [content]
  exact eval_pages_link isRole staying alive

theorem requestRole_link (enough : 4 ≤ limit) (session : Session) (db : Db) :
    requestRole server db (followRedirect limit link.href) session =
      if link = .logout then none else sessionRole server db session := by
  rw [followRedirect_href enough]
  split
  next leaving =>
    rw [leaving]
    rfl
  next staying =>
    have noLogout : (textParams link.fields).has (bytes "logout") = false := by
      cases link <;> first | exact absurd rfl staying | rfl
    exact requestRole_of_session noLogout rfl

/-- Following an alive link leads to a page whose links are alive. -/
theorem Browsing.sound_follow
    (linkable : Linkable server state.db) (enough : 4 ≤ limit)
    (alive : link.Alive server state.db state.session) :
    (state.follow server runtime limit link).Sound server := by
  have same := @Browsing.samePlaces_follow server runtime limit state link
  have granted :=
    @requestRole_link server limit link enough state.session state.db
  cases isRole :
      requestRole server state.db (followRedirect limit link.href)
        state.session with
  | none =>
      obtain ⟨noId, noInfo, isLogin⟩ :=
        @Browsing.follow_roleless server runtime limit state link enough
          isRole
      refine ⟨linkable.congr same, ?_, ?_⟩
      · simp only [sessionRole, noId, noInfo, Option.isSome_none]
      · intro other member
        rw [Browsing.links, noInfo, isLogin] at member
        rw [List.mem_singleton.mp member]
        trivial
  | some role =>
      rw [isRole] at granted
      have staying : link ≠ .logout := by
        rintro rfl
        cases granted
      rw [if_neg staying] at granted
      obtain ⟨session, userinfo, _⟩ :=
        @Browsing.follow_role server runtime limit state link role
          granted.symm enough staying (alive.inRange linkable)
      have kept :=
        @sessionRole_congr server state.db
          (state.session.settle (some role)) _
          (state.follow server runtime limit link).session same.users
          (by rw [session]) (by rw [session])
      refine ⟨linkable.congr same, ?_, ?_⟩
      · rw [kept, sessionRole_settle linkable.names granted.symm, userinfo]
        rfl
      · intro other member
        rcases List.mem_append.mp member with header | below
        · rw [userinfo] at header
          simp only [headerLinks, Option.isSome_some, if_true,
            List.cons_append, List.nil_append, List.mem_cons,
            List.not_mem_nil, or_false] at header
          rcases header with rfl | rfl <;> trivial
        · have shown :=
            @Browsing.shown_follow server runtime limit state link linkable
              enough staying alive role granted.symm
          refine shown.alive alive same ?_ other below
          intro isAdmin
          have admin : role.id = ltlsAdmin := beq_iff_eq.mp isAdmin
          rw [kept]
          simp only [sessionRole, Session.settle, admin, if_true]

end

/-! ## Runs -/

section

variable (server : Server) (runtime : Runtime)

/-- The links from the first page to the page of a kit. -/
def trail (orderId kitId : Int) : List Link :=
  [.home, .kitting, .order orderId, .kit orderId kitId]

variable {server runtime} {limit : Nat} {state : Browsing}

/-- Every link of a sound page leads where it says. -/
theorem Browsing.Sound.leads
    (sound : state.Sound server) (enough : 4 ≤ limit) {link : Link}
    (member : link ∈ state.links) :
    placeOf (state.follow server runtime limit link).content =
      some (if state.userinfo.isSome then link.target else .login) := by
  have granted :=
    @requestRole_link server limit link enough state.session state.db
  have recognised := sound.recognised
  by_cases leaving : link = .logout
  · rw [if_pos leaving] at granted
    obtain ⟨_, _, isLogin⟩ :=
      @Browsing.follow_roleless server runtime limit state link enough granted
    rw [isLogin, leaving]
    split <;> rfl
  · rw [if_neg leaving] at granted
    cases isRole : sessionRole server state.db state.session with
    | none =>
        rw [isRole] at granted recognised
        obtain ⟨_, _, isLogin⟩ :=
          @Browsing.follow_roleless server runtime limit state link enough
            granted
        rw [isLogin, ← recognised]
        rfl
    | some role =>
        rw [isRole] at recognised
        have shown :=
          @Browsing.shown_follow server runtime limit state link
            sound.linkable enough leaving (sound.alive link member) role
            isRole
        rw [shown.place, ← recognised]
        rfl

/-- A session with a role keeps seeing pages, until it logs out. -/
theorem Browsing.Sound.onward
    (sound : state.Sound server) (enough : 4 ≤ limit)
    (recognised : state.userinfo.isSome = true) {link : Link}
    (member : link ∈ state.links) (staying : link ≠ .logout) :
    ∃ role,
      (state.follow server runtime limit link).Sound server ∧
        (state.follow server runtime limit link).userinfo.isSome = true ∧
        link.ShownAs state.db role
          (state.follow server runtime limit link).content := by
  have alive := sound.alive link member
  obtain ⟨role, isRole⟩ :=
    Option.isSome_iff_exists.mp (sound.recognised.trans recognised)
  obtain ⟨_, userinfo, _⟩ :=
    @Browsing.follow_role server runtime limit state link role isRole enough
      staying (alive.inRange sound.linkable)
  exact
    ⟨role, Browsing.sound_follow sound.linkable enough alive,
      by rw [userinfo]; rfl,
      Browsing.shown_follow sound.linkable enough staying alive isRole⟩

theorem Browsing.content_mem_links {link : Link} {content : Content}
    (shown : state.content = content)
    (member : link ∈ contentLinks content) : link ∈ state.links :=
  List.mem_append_right _ (shown ▸ member)

/-- Over the links, a session with a role comes to every kit. -/
theorem Browsing.Sound.trail
    (sound : state.Sound server) (enough : 4 ≤ limit)
    (recognised : state.userinfo.isSome = true) {orderId kitId : Int}
    (ordered : (state.db.orders.lookup orderId).isSome = true)
    (found : (state.db.findKit orderId kitId).isSome = true) :
    EveryStep (Browsing.follow server runtime limit)
        (fun current link => link ∈ current.links) state
        (trail orderId kitId) ∧
      placeOf
          (runActions (Browsing.follow server runtime limit) state
            (trail orderId kitId)).content =
        some (.kit orderId kitId) := by
  have home : Link.home ∈ state.links := by
    rw [Browsing.links, headerLinks, recognised]
    simp
  obtain ⟨_, soundFirst, recognisedFirst, first⟩ :=
    @Browsing.Sound.onward server runtime limit state sound enough recognised
      .home home (by decide)
  have kitting := Browsing.content_mem_links first (List.mem_cons_self ..)
  have sameFirst := @Browsing.samePlaces_follow server runtime limit state .home
  obtain ⟨_, soundKitting, recognisedKitting, listed⟩ :=
    @Browsing.Sound.onward server runtime limit _ soundFirst enough
      recognisedFirst .kitting kitting (by decide)
  have order :=
    @Browsing.content_mem_links _ (.order orderId) _ listed
      (order_mem_links.mpr (by rw [sameFirst.orders]; exact ordered))
  have sameKitting :=
    @Browsing.samePlaces_follow server runtime limit
      (state.follow server runtime limit .home) .kitting
  obtain ⟨_, soundOrder, recognisedOrder, kits⟩ :=
    @Browsing.Sound.onward server runtime limit _ soundKitting enough
      recognisedKitting (.order orderId) order (by rintro ⟨⟩)
  have known :
      (((state.follow server runtime limit .home).follow server runtime limit
        .kitting).db.findKit orderId kitId).isSome = true := by
    rw [findKit_isSome_iff, sameKitting.kits, sameFirst.kits,
      ← findKit_isSome_iff]
    exact found
  have kit :=
    @Browsing.content_mem_links _ (.kit orderId kitId) _ kits
      (kit_mem_links.mpr known)
  obtain ⟨_, _, _, shown⟩ :=
    @Browsing.Sound.onward server runtime limit _ soundOrder enough
      recognisedOrder (.kit orderId kitId) kit (by rintro ⟨⟩)
  exact ⟨⟨home, kitting, order, kit, trivial⟩, shown.place⟩

end

/-- Whatever other sessions do, as long as they post no script: every link of
every page that the browser comes to leads to the page that it names, or to
the form of the login if the session has no role; and from every page of a
session with a role, links lead to every kit. -/
theorem links_lead
    (server : Server) (runtime : Runtime) (limit : Nat) (db : Db)
    (session : Session) (actions : List BrowserAction)
    (enough : 4 ≤ limit) (linkable : Linkable server db)
    (harmless : ∀ action ∈ actions, action.Harmless) :
    EveryState (Browsing.step server runtime limit)
      (fun state =>
        (∀ link ∈ state.links,
          placeOf (state.follow server runtime limit link).content =
            some
              (if state.userinfo.isSome then link.target else .login)) ∧
          (state.userinfo.isSome = true →
            ∀ kit ∈ db.kits,
              (db.orders.lookup kit.orderId).isSome = true →
                EveryStep (Browsing.follow server runtime limit)
                    (fun current link => link ∈ current.links) state
                    (trail kit.orderId kit.id) ∧
                  placeOf
                      (runActions (Browsing.follow server runtime limit)
                        state (trail kit.orderId kit.id)).content =
                    some (.kit kit.orderId kit.id)))
      (Browsing.opened server runtime limit db session) actions := by
  have kept :
      EveryState (Browsing.step server runtime limit)
        (fun state => state.Sound server ∧ SamePlaces db state.db)
        (Browsing.opened server runtime limit db session) actions := by
    refine
      everyState_invariant _ ?_ ?_ (everyStep_of_mem harmless _)
    · rintro state (place | ⟨request, other⟩) ⟨sound, same⟩ allowed
      · simp only [Browsing.step]
        split
        next link opened =>
          have later :=
            @Browsing.samePlaces_follow server runtime limit state link
          exact
            ⟨Browsing.sound_follow sound.linkable enough
                (sound.alive link (List.mem_of_getElem? opened)),
              same.trans later⟩
        next => exact ⟨sound, same⟩
      · have later :=
          @samePlaces_index server runtime request allowed other state.db
        exact ⟨sound.other allowed other, same.trans later⟩
    · exact
        ⟨Browsing.sound_follow linkable enough trivial,
          @Browsing.samePlaces_follow server runtime limit
            { db := db, session := session, userinfo := none,
              content := .nothing } .home⟩
  refine kept.imp ?_
  rintro state ⟨sound, same⟩
  refine ⟨fun link member => sound.leads enough member, ?_⟩
  intro recognised kit member ordered
  apply sound.trail enough recognised
  · rw [same.orders]
    exact ordered
  · rw [findKit_isSome_iff, same.kits]
    exact List.mem_map_of_mem member

/-- Bob opens the list of the orders, another user the page of the kit. -/
def openingList : List BrowserAction :=
  [.click 2, .other (kitRequestOf 4 1 0) bobSession]

theorem links_lead_openingList :
    (Browsing.opened Server.plain Runtime.plain 4 staffed
          bobSession).userinfo = some (bytes "Bob") ∧
      placeOf
          (runActions (Browsing.follow Server.plain Runtime.plain 4)
            (runActions (Browsing.step Server.plain Runtime.plain 4)
              (Browsing.opened Server.plain Runtime.plain 4 staffed
                bobSession) openingList)
            (trail 1 0)).content =
        some (.kit 1 0) := by
  have names : NamesValid Server.plain staffed :=
    (by decide :
      ∀ row ∈ staffed.users.rows,
        Server.plain.encoding.valid row.username = true)
  have led :=
    links_lead Server.plain Runtime.plain 4 staffed bobSession openingList
      (by decide) ⟨names, by decide, by decide⟩ (by decide)
  rw [← List.append_nil openingList] at led
  have bolt : ⟨1, 0, 2, 0, none⟩ ∈ staffed.kits := by decide
  exact ⟨by decide, (led.visited.2 (by decide) _ bolt (by decide)).2⟩

end LtlsKitting.Client
