import LtlsKitting.Client.Counts
import LtlsKitting.Client.Wire

/-!
# Runs over the wire

Pages in several browsers, whose requests travel as queries and forms and are
handled by the dispatcher in the session of their browser.  Every run of this
system is a run of the pages and the server that exchange documents: what is
written, encoded, decoded and read on the way makes no difference.
-/

namespace LtlsKitting.Client

open LtlsKitting.Php LtlsKitting.Store LtlsKitting.Operations
open LtlsKitting.Sync LtlsKitting.Web LtlsKitting.Interaction
open LtlsKitting.Relational

/-- The parties: a server that reads at least four variables of a form, and a
browser whose documents it decodes. -/
structure Setup where
  server : Server
  runtime : Runtime
  browser : Browser
  numberText : Int → Bytes
  limit : Nat
  decodes : Decodes numberText browser runtime
  enough : 4 ≤ limit

/-- A post under way, with the browser that has sent it. -/
structure WirePost (ι : Type) where
  client : ι
  page : Nat
  query : Bytes
  body : Bytes

/-- The store, the sessions of the browsers, and the pages with the browsers
that show them. -/
structure WireKitting (ι : Type) where
  db : Db
  sessions : ι → Session
  pages : List (ι × Page)
  posts : List (WirePost ι)
  responses : List Response

inductive WireAction (ι : Type) where
  | openKit (client : ι) (orderId kitId : Int) (loaded now : Nat)
  | edit (page row : Nat) (text : Text)
  | click (page row : Nat)
  | tick (page now : Nat)
  | serve (post : Nat)
  | deliver (response : Nat)

namespace WireKitting

variable {ι : Type}

/-- No page is open. -/
def start (db : Db) (sessions : ι → Session) : WireKitting ι where
  db := db
  sessions := sessions
  pages := []
  posts := []
  responses := []

/-- The outcome of a request of a browser. -/
def outcome
    (setup : Setup) (wire : WireKitting ι) (client : ι)
    (request : HttpRequest) : Outcome :=
  (index setup.runtime request (wire.sessions client)).eval
    (perform setup.server) wire.db

/-- The table of a page is changed by its user. -/
def onPage (wire : WireKitting ι) (page : Nat) (change : Page → Page) :
    WireKitting ι :=
  { wire with
    pages :=
      wire.pages.modify page (fun entry => (entry.1, change entry.2)) }

def tick
    (setup : Setup) (wire : WireKitting ι) (page now : Nat) :
    WireKitting ι :=
  match wire.pages[page]? with
  | some (client, current) =>
      { wire with
        pages :=
          wire.pages.set page (client, current.syncKits setup.browser now)
        posts :=
          wire.posts ++
            [{ client := client
               page := page
               query := syncQuery current.orderId current.kitId
               body :=
                 requestsParam
                   (syncTexts setup.numberText current.table) }] }
  | none => wire

def deliver
    (setup : Setup) (wire : WireKitting ι) (index : Nat) : WireKitting ι :=
  match wire.responses[index]? with
  | some response =>
      { wire.onPage response.page
          (fun page => page.receive setup.browser response.goals) with
        responses := wire.responses.eraseIdx index }
  | none => wire

variable [DecidableEq ι]

/-- The store and the session after a request of a browser. -/
def visit
    (setup : Setup) (wire : WireKitting ι) (client : ι)
    (request : HttpRequest) : WireKitting ι :=
  { wire with
    db :=
      (index setup.runtime request (wire.sessions client)).exec
        (perform setup.server) wire.db
    sessions :=
      Function.update wire.sessions client
        (wire.outcome setup client request).session }

/-- A browser follows a link to a kit.  A page that is shown posts for the
first time. -/
def openKit
    (setup : Setup) (wire : WireKitting ι) (client : ι)
    (orderId kitId : Int) (loaded now : Nat) : WireKitting ι :=
  let request := kitRequestOf setup.limit orderId kitId
  match replyKit (wire.outcome setup client request).reply with
  | some shown =>
      { wire.visit setup client request with
        pages :=
          wire.pages ++
            [(client, Page.loaded shown.1 shown.2 loaded now)]
        posts :=
          wire.posts ++
            [{ client := client
               page := wire.pages.length
               query := syncQuery shown.1 shown.2
               body := requestsParam [] }] }
  | none => wire.visit setup client request

/-- The server handles a post; a reply without rows is an error to the
page. -/
def serve
    (setup : Setup) (wire : WireKitting ι) (index : Nat) : WireKitting ι :=
  match wire.posts[index]? with
  | some post =>
      let request := receiveRequest setup.limit post.query post.body
      { wire.visit setup post.client request with
        posts := wire.posts.eraseIdx index
        responses :=
          wire.responses ++
            ((replyGoals (wire.outcome setup post.client request).reply).map
              (fun rows => ⟨post.page, rows⟩)).toList }
  | none => wire

def step
    (setup : Setup) (wire : WireKitting ι) : WireAction ι → WireKitting ι
  | .openKit client orderId kitId loaded now =>
      wire.openKit setup client orderId kitId loaded now
  | .edit page row text =>
      wire.onPage page (fun current => current.edit row text)
  | .click page row => wire.onPage page (fun current => current.click row)
  | .tick page now => wire.tick setup page now
  | .serve post => wire.serve setup post
  | .deliver response => wire.deliver setup response

end WireKitting

section

variable {ι : Type}

/-- The session of the browser has a role. -/
def Recognised
    (setup : Setup) (wire : WireKitting ι) (client : ι) : Prop :=
  (sessionRole setup.server wire.db (wire.sessions client)).isSome = true

/-- A kit that is opened has numbers that the server can cast, and a table
that is posted does not exceed the variables of a form. -/
def WireAction.Fits
    (setup : Setup) (wire : WireKitting ι) : WireAction ι → Prop
  | .openKit _ orderId kitId _ _ => Machine orderId ∧ Machine kitId
  | .tick page _ =>
      ∀ entry ∈ wire.pages[page]?, entry.2.table.length < setup.limit
  | _ => True

/-- What happens between the pages and the server when something happens on
the wire.  A browser without a role opens no page. -/
def WireAction.exchanged
    (setup : Setup) (wire : WireKitting ι) : WireAction ι → List KittingAction
  | .openKit client orderId kitId loaded now =>
      match sessionRole setup.server wire.db (wire.sessions client) with
      | some role => [.openKit role orderId kitId loaded now]
      | none => []
  | .edit page row text => [.edit page row text]
  | .click page row => [.click page row]
  | .tick page now => [.tick page now]
  | .serve post => [.serve post]
  | .deliver response => [.deliver response]

/-- What happens between the pages and the server in a run on the wire. -/
def exchangedActions [DecidableEq ι] (setup : Setup) :
    WireKitting ι → List (WireAction ι) → List KittingAction
  | _, [] => []
  | wire, action :: rest =>
      action.exchanged setup wire ++
        exchangedActions setup (wire.step setup action) rest

/-- The form of a post holds its documents. -/
structure Carries
    (setup : Setup) (sent : WirePost ι) (post : Post) : Prop where
  page : post.page = sent.page
  query : sent.query = syncQuery post.orderId post.kitId
  order : Machine post.orderId
  kit : Machine post.kitId
  body :
    ∃ texts,
      sent.body = requestsParam texts ∧
        decodedRequests setup.runtime (texts.take setup.limit) =
          post.requests

/-- The system over the wire is in the state of the pages and the server. -/
structure Represents
    (setup : Setup) (wire : WireKitting ι) (kitting : Kitting) : Prop where
  db : kitting.db = wire.db
  pages : kitting.pages = wire.pages.map Prod.snd
  posts : List.Forall₂ (Carries setup) wire.posts kitting.posts
  responses : kitting.responses = wire.responses

/-- Pages and posts belong to browsers with a role. -/
structure Settled (setup : Setup) (wire : WireKitting ι) : Prop where
  names : NamesValid setup.server wire.db
  pages :
    ∀ entry ∈ wire.pages,
      Recognised setup wire entry.1 ∧
        Machine entry.2.orderId ∧ Machine entry.2.kitId
  posts : ∀ post ∈ wire.posts, Recognised setup wire post.client

variable {setup : Setup} {wire : WireKitting ι} {kitting : Kitting}

/-! ## Lists of pages -/

theorem map_modify_snd {α β : Type} (entries : List (α × β)) (place : Nat)
    (change : β → β) :
    (entries.modify place (fun entry => (entry.1, change entry.2))).map
        Prod.snd =
      (entries.map Prod.snd).modify place change := by
  induction entries generalizing place with
  | nil => simp
  | cons entry rest inductionHypothesis =>
      cases place with
      | zero => rfl
      | succ place =>
          simpa using inductionHypothesis place

theorem mem_modify {α : Type} {entries : List α} {place : Nat}
    {change : α → α} {entry : α} (member : entry ∈ entries.modify place change) :
    entry ∈ entries ∨ ∃ origin ∈ entries, change origin = entry := by
  obtain ⟨index, found⟩ := List.mem_iff_getElem?.mp member
  rw [List.getElem?_modify] at found
  obtain ⟨origin, present, changed⟩ := Option.map_eq_some_iff.mp found
  have known := List.mem_of_getElem? present
  by_cases here : place = index
  · rw [if_pos here] at changed
    exact Or.inr ⟨origin, known, changed⟩
  · rw [if_neg here] at changed
    exact Or.inl (changed ▸ known)

/-- Related lists have related entries at every place. -/
theorem forall₂_getElem? {α β : Type} {related : α → β → Prop}
    {first : List α} {second : List β}
    (all : List.Forall₂ related first second) (place : Nat) :
    (first[place]? = none ∧ second[place]? = none) ∨
      ∃ left right,
        first[place]? = some left ∧ second[place]? = some right ∧
          related left right := by
  induction all generalizing place with
  | nil => exact Or.inl ⟨rfl, rfl⟩
  | cons holds _ inductionHypothesis =>
      cases place with
      | zero => exact Or.inr ⟨_, _, rfl, rfl, holds⟩
      | succ place => simpa using inductionHypothesis place

theorem forall₂_eraseIdx {α β : Type} {related : α → β → Prop}
    {first : List α} {second : List β}
    (all : List.Forall₂ related first second) (place : Nat) :
    List.Forall₂ related (first.eraseIdx place) (second.eraseIdx place) := by
  induction all generalizing place with
  | nil => exact List.Forall₂.nil
  | cons holds rest inductionHypothesis =>
      cases place with
      | zero => exact rest
      | succ place =>
          exact List.Forall₂.cons holds (inductionHypothesis place)

/-! ## Visits -/

section

variable [DecidableEq ι] {client : ι} {request : HttpRequest}

/-- A browser that had a role has one after every visit. -/
theorem recognised_visit
    (valid : NamesValid setup.server wire.db)
    (noCode : request.post.has (bytes "code") = false)
    (ownRole :
      requestRole setup.server wire.db request (wire.sessions client) =
        sessionRole setup.server wire.db (wire.sessions client))
    {other : ι} (recognised : Recognised setup wire other) :
    Recognised setup (wire.visit setup client request) other := by
  have sameUsers :
      (wire.visit setup client request).db.users = wire.db.users :=
    users_index noCode
  by_cases same : other = client
  · subst same
    obtain ⟨role, isRole⟩ := Option.isSome_iff_exists.mp recognised
    obtain ⟨messages, isSession⟩ :=
      session_index setup.server wire.db setup.runtime request
        (wire.sessions other)
    have session :
        (wire.visit setup other request).sessions other =
          { (wire.sessions other).settle (some role) with
            messages := some messages } := by
      simp only [WireKitting.visit, WireKitting.outcome,
        Function.update_self, isSession, ownRole, isRole]
    have settled :
        sessionRole setup.server (wire.visit setup other request).db
            ((wire.visit setup other request).sessions other) =
          sessionRole setup.server wire.db
            ((wire.sessions other).settle (some role)) :=
      sessionRole_congr sameUsers (by rw [session]) (by rw [session])
    rw [Recognised, settled]
    exact sessionRole_settle valid isRole
  · have session :
        (wire.visit setup client request).sessions other =
          wire.sessions other := by
      simp [WireKitting.visit, same]
    simp only [Recognised]
    rw [sessionRole_congr sameUsers (by rw [session]) (by rw [session])]
    exact recognised

theorem settled_visit
    (settled : Settled setup wire)
    (noCode : request.post.has (bytes "code") = false)
    (ownRole :
      requestRole setup.server wire.db request (wire.sessions client) =
        sessionRole setup.server wire.db (wire.sessions client)) :
    Settled setup (wire.visit setup client request) := by
  have kept :
      ∀ {other : ι}, Recognised setup wire other →
        Recognised setup (wire.visit setup client request) other :=
    fun recognised =>
      recognised_visit settled.names noCode ownRole recognised
  constructor
  · have sameUsers :
        (wire.visit setup client request).db.users = wire.db.users :=
      users_index noCode
    rw [NamesValid, sameUsers]
    exact settled.names
  · intro entry member
    obtain ⟨recognised, machine⟩ := settled.pages entry member
    exact ⟨kept recognised, machine⟩
  · intro post member
    exact kept (settled.posts post member)

end

/-! ## Steps -/

/-- The user changes a table. -/
theorem represents_onPage
    (represents : Represents setup wire kitting) (page : Nat)
    (change : Page → Page) :
    Represents setup (wire.onPage page change)
      { kitting with pages := kitting.pages.modify page change } := by
  refine
    ⟨represents.db, ?_, represents.posts, represents.responses⟩
  simp only [WireKitting.onPage, represents.pages]
  exact (map_modify_snd wire.pages page change).symm

theorem settled_onPage
    (settled : Settled setup wire) (page : Nat) {change : Page → Page}
    (sameKit :
      ∀ current, (change current).orderId = current.orderId ∧
        (change current).kitId = current.kitId) :
    Settled setup (wire.onPage page change) := by
  refine ⟨settled.names, ?_, settled.posts⟩
  intro entry member
  rcases mem_modify member with old | ⟨origin, known, rfl⟩
  · exact settled.pages entry old
  · rw [(sameKit origin.2).1, (sameKit origin.2).2]
    exact settled.pages origin known

/-- A tick posts the same documents. -/
theorem tick_represents
    (represents : Represents setup wire kitting)
    (settled : Settled setup wire) (page now : Nat)
    (short :
      ∀ entry ∈ wire.pages[page]?, entry.2.table.length < setup.limit) :
    Represents setup (wire.tick setup page now)
        (kitting.tick setup.browser page now) ∧
      Settled setup (wire.tick setup page now) := by
  have samePage :
      kitting.pages[page]? = wire.pages[page]?.map Prod.snd := by
    rw [represents.pages, List.getElem?_map]
  simp only [WireKitting.tick, Kitting.tick, samePage]
  cases present : wire.pages[page]? with
  | none => exact ⟨represents, settled⟩
  | some entry =>
      obtain ⟨client, current⟩ := entry
      have known := List.mem_of_getElem? present
      obtain ⟨recognised, order, kit⟩ := settled.pages _ known
      have whole :
          (syncTexts setup.numberText current.table).take setup.limit =
            syncTexts setup.numberText current.table := by
        apply List.take_of_length_le
        have rows : current.table.length < setup.limit :=
          short (client, current) present
        simp only [syncTexts, List.length_append, List.length_map]
        split
        · rw [List.length_nil]
          omega
        · rw [List.length_singleton]
          omega
      have sameDocuments :
          decodedRequests setup.runtime
              (syncTexts setup.numberText current.table) =
            (syncDocuments setup.browser current.table).filterMap
              (fun document => decodeRequest (some document)) := by
        have decoded :=
          congrArg (List.filterMap decodeRequest)
            (decoded_syncTexts setup.decodes current.table)
        rw [List.filterMap_map, List.filterMap_map] at decoded
        exact decoded
      refine ⟨⟨represents.db, ?_, ?_, represents.responses⟩, ?_⟩
      · simp only [Option.map_some, represents.pages]
        rw [List.map_set]
      · refine List.rel_append represents.posts ?_
        refine List.Forall₂.cons ?_ List.Forall₂.nil
        exact
          ⟨rfl, rfl, order, kit, _, rfl, by
            rw [whole, sameDocuments]; rfl⟩
      · refine ⟨settled.names, ?_, ?_⟩
        · intro other member
          rcases List.mem_or_eq_of_mem_set member with old | rfl
          · exact settled.pages other old
          · exact ⟨recognised, order, kit⟩
        · intro post member
          rcases List.mem_append.mp member with old | new
          · exact settled.posts post old
          · rw [List.mem_singleton.mp new]
            exact recognised

/-- A response reaches its page. -/
theorem deliver_represents
    (represents : Represents setup wire kitting)
    (settled : Settled setup wire) (index : Nat) :
    Represents setup (wire.deliver setup index)
        (kitting.deliver setup.browser index) ∧
      Settled setup (wire.deliver setup index) := by
  simp only [WireKitting.deliver, Kitting.deliver, represents.responses]
  cases wire.responses[index]? with
  | none => exact ⟨represents, settled⟩
  | some response =>
      have changed :=
        represents_onPage represents response.page
          (fun page => page.receive setup.browser response.goals)
      have sameKit :
          ∀ current : Page,
            (current.receive setup.browser response.goals).orderId =
                current.orderId ∧
              (current.receive setup.browser response.goals).kitId =
                current.kitId := by
        intro current
        simp only [Page.receive]
        split <;> exact ⟨rfl, rfl⟩
      have kept := settled_onPage settled response.page sameKit
      exact
        ⟨⟨changed.db, changed.pages, changed.posts, rfl⟩,
          ⟨kept.names, kept.pages, kept.posts⟩⟩

/-- What the server does with a post of a kit that may not exist. -/
theorem serve_eq (server : Server) {index : Nat} {post : Post}
    (isPost : kitting.posts[index]? = some post) :
    kitting.serve server index =
      { kitting with
        db :=
          (served server kitting.db post.orderId post.kitId post.requests).1
        posts := kitting.posts.eraseIdx index
        responses :=
          kitting.responses ++
            ((served server kitting.db post.orderId post.kitId
              post.requests).2.map (fun rows => ⟨post.page, rows⟩)).toList } := by
  simp only [Kitting.serve, isPost, served]
  cases kitting.db.orders.lookup post.orderId with
  | none => simp
  | some order =>
      cases kitting.db.findKit post.orderId post.kitId with
      | none => simp
      | some kit => rfl

/-- Opening the page of a kit that may not exist. -/
theorem openKit_eq (server : Server) (role : Role) (orderId kitId : Int)
    (loaded now : Nat) :
    kitting.openKit server role orderId kitId loaded now =
      match (opened server kitting.db role orderId kitId).2 with
      | some shown =>
          { kitting with
            db := (opened server kitting.db role orderId kitId).1
            pages :=
              kitting.pages ++ [Page.loaded shown.1 shown.2 loaded now]
            posts :=
              kitting.posts ++
                [⟨kitting.pages.length, shown.1, shown.2, []⟩] }
      | none => kitting := by
  simp only [Kitting.openKit, opened]
  cases isOrder : kitting.db.orders.lookup orderId with
  | none => rfl
  | some order =>
      cases isKit : kitting.db.findKit orderId kitId with
      | none => rfl
      | some kit =>
          have sameOrder : order.id = orderId :=
            (SerialTable.mem_of_lookup isOrder).2
          have sameKit : kit.id = kitId := by
            have named := List.find?_some isKit
            simp only [decide_eq_true_eq] at named
            exact named.2
          simp only [sameOrder, sameKit]

/-- A kit that is shown is the one that was asked for. -/
theorem opened_shown {server : Server} {db : Db} {role : Role}
    {orderId kitId : Int} :
    (opened server db role orderId kitId =
        (db, none)) ∨
      (opened server db role orderId kitId).2 = some (orderId, kitId) := by
  simp only [opened]
  split
  next order kit isOrder isKit =>
    have named := List.find?_some isKit
    simp only [decide_eq_true_eq] at named
    rw [(SerialTable.mem_of_lookup isOrder).2, named.2]
    exact Or.inr rfl
  next => exact Or.inl rfl

section

variable [DecidableEq ι]

/-- A post that is handled by the dispatcher is served. -/
theorem serve_represents
    (represents : Represents setup wire kitting)
    (settled : Settled setup wire) (index : Nat) :
    Represents setup (wire.serve setup index)
        (kitting.serve setup.server index) ∧
      Settled setup (wire.serve setup index) := by
  rcases forall₂_getElem? represents.posts index with
    ⟨noPost, noOther⟩ | ⟨sent, post, isSent, isPost, carries⟩
  · simp only [WireKitting.serve, Kitting.serve, noPost, noOther]
    exact ⟨represents, settled⟩
  obtain ⟨texts, isBody, requests⟩ := carries.body
  have recognised := settled.posts sent (List.mem_of_getElem? isSent)
  have isRequest :
      receiveRequest setup.limit sent.query sent.body =
        syncRequest setup.limit post.orderId post.kitId texts := by
    rw [carries.query, isBody]
    rfl
  have noCode :
      (syncRequest setup.limit post.orderId post.kitId texts).post.has
        (bytes "code") = false := by
    rw [syncRequest_eq setup.enough]
    exact has_requestsParams (by decide) _
  have visited :=
    settled_visit settled noCode
      (@requestRole_syncRequest setup.server wire.db
        (wire.sessions sent.client) setup.limit setup.enough post.orderId
        post.kitId texts)
  obtain ⟨executed, replied⟩ :=
    @index_syncRequest setup.server setup.runtime wire.db
      (wire.sessions sent.client) setup.limit post.orderId post.kitId
      setup.enough carries.order carries.kit texts recognised
  rw [requests] at executed replied
  rw [serve_eq setup.server isPost, represents.db]
  simp only [WireKitting.serve, isSent, isRequest, WireKitting.outcome,
    replied]
  refine ⟨⟨executed.symm, represents.pages, ?_, ?_⟩, ?_⟩
  · exact forall₂_eraseIdx represents.posts index
  · rw [represents.responses, carries.page]
  · refine ⟨visited.names, visited.pages, ?_⟩
    intro other member
    exact visited.posts other (List.mem_of_mem_eraseIdx member)

/-- Opening a kit is opening its page, or changes nothing but the session. -/
theorem openKit_represents
    (represents : Represents setup wire kitting)
    (settled : Settled setup wire) (client : ι) {orderId kitId : Int}
    (order : Machine orderId) (kit : Machine kitId) (loaded now : Nat) :
    Settled setup (wire.openKit setup client orderId kitId loaded now) ∧
      Represents setup (wire.openKit setup client orderId kitId loaded now)
        (runActions (Kitting.step setup.server setup.browser) kitting
          (WireAction.exchanged setup wire
            (.openKit client orderId kitId loaded now))) := by
  have noCode :
      (kitRequestOf setup.limit orderId kitId).post.has (bytes "code") =
        false := by
    rw [kitRequestOf_eq setup.enough]
    rfl
  have ownRole :=
    @requestRole_kitRequestOf setup.server wire.db (wire.sessions client)
      setup.limit setup.enough orderId kitId
  have visited := settled_visit settled noCode ownRole
  cases isRole : sessionRole setup.server wire.db (wire.sessions client) with
  | none =>
      obtain ⟨executed, replied⟩ :=
        @index_kitRequestOf_roleless setup.server setup.runtime wire.db
          (wire.sessions client) setup.limit orderId kitId setup.enough isRole
      simp only [WireKitting.openKit, WireKitting.outcome, replied,
        WireAction.exchanged, isRole, runActions_nil]
      exact
        ⟨visited,
          ⟨represents.db.trans executed.symm, represents.pages,
            represents.posts, represents.responses⟩⟩
  | some role =>
      obtain ⟨executed, replied⟩ :=
        @index_kitRequestOf setup.server setup.runtime wire.db
          (wire.sessions client) setup.limit orderId kitId setup.enough order
          kit role isRole
      simp only [WireKitting.openKit, WireKitting.outcome, replied,
        WireAction.exchanged, isRole, runActions_cons, runActions_nil,
        Kitting.step]
      rw [openKit_eq, represents.db]
      rcases @opened_shown setup.server wire.db role orderId kitId with
        missing | shown
      · rw [missing] at executed ⊢
        exact
          ⟨visited,
            ⟨represents.db.trans executed.symm, represents.pages,
              represents.posts, represents.responses⟩⟩
      · have recognised :
            Recognised setup
              (wire.visit setup client
                (kitRequestOf setup.limit orderId kitId)) client := by
          apply recognised_visit settled.names noCode ownRole
          rw [Recognised, isRole]
          rfl
        simp only [shown]
        refine ⟨⟨visited.names, ?_, ?_⟩, ?_⟩
        · intro entry member
          rcases List.mem_append.mp member with old | new
          · exact visited.pages entry old
          · rw [List.mem_singleton.mp new]
            exact ⟨recognised, order, kit⟩
        · intro post member
          rcases List.mem_append.mp member with old | new
          · exact visited.posts post old
          · rw [List.mem_singleton.mp new]
            exact recognised
        · refine ⟨executed.symm, ?_, ?_, represents.responses⟩
          · rw [represents.pages, List.map_append]
            rfl
          · refine List.rel_append represents.posts ?_
            refine List.Forall₂.cons ?_ List.Forall₂.nil
            refine ⟨?_, rfl, order, kit, [], rfl, ?_⟩
            · rw [represents.pages, List.length_map]
            · rw [List.take_nil]
              rfl

/-- Every step over the wire is at most one step of the pages and the
server. -/
theorem step_represents
    (represents : Represents setup wire kitting)
    (settled : Settled setup wire) {action : WireAction ι}
    (fits : action.Fits setup wire) :
    Settled setup (wire.step setup action) ∧
      Represents setup (wire.step setup action)
        (runActions (Kitting.step setup.server setup.browser) kitting
          (action.exchanged setup wire)) := by
  cases action with
  | openKit client orderId kitId loaded now =>
      exact
        openKit_represents represents settled client fits.1 fits.2 loaded now
  | edit page row text =>
      exact
        ⟨@settled_onPage ι setup wire settled page
            (fun current => current.edit row text) (fun _ => ⟨rfl, rfl⟩),
          represents_onPage represents page
            (fun current => current.edit row text)⟩
  | click page row =>
      exact
        ⟨@settled_onPage ι setup wire settled page
            (fun current => current.click row) (fun _ => ⟨rfl, rfl⟩),
          represents_onPage represents page
            (fun current => current.click row)⟩
  | tick page now =>
      exact (tick_represents represents settled page now fits).symm
  | serve post =>
      exact (serve_represents represents settled post).symm
  | deliver response =>
      exact (deliver_represents represents settled response).symm

/-! ## Runs -/

omit [DecidableEq ι] in
theorem settled_start {db : Db} (names : NamesValid setup.server db)
    (sessions : ι → Session) :
    Settled setup (WireKitting.start db sessions) := by
  refine ⟨names, ?_, ?_⟩
  · intro entry member
    cases member
  · intro post member
    cases member

/-- Every run over the wire is the run of what it exchanges. -/
theorem run_represents
    (represents : Represents setup wire kitting)
    (settled : Settled setup wire) (actions : List (WireAction ι))
    (fits :
      EveryStep (WireKitting.step setup)
        (fun wire action => action.Fits setup wire) wire actions) :
    Represents setup (runActions (WireKitting.step setup) wire actions)
      (runActions (Kitting.step setup.server setup.browser) kitting
        (exchangedActions setup wire actions)) := by
  induction actions generalizing wire kitting with
  | nil => exact represents
  | cons action rest inductionHypothesis =>
      obtain ⟨fitsNow, fitsLater⟩ := fits
      obtain ⟨settledNext, next⟩ := step_represents represents settled fitsNow
      simp only [exchangedActions]
      rw [runActions_append]
      exact inductionHypothesis next settledNext fitsLater

/-- After every run over the wire the system is in the state in which the
pages and the server are after the run of what was exchanged: pages of
browsers with a role are opened, and the same pages tick, the same posts are
served and the same responses are delivered, in the same order. -/
theorem actions_represented
    (setup : Setup) (db : Db) (names : NamesValid setup.server db)
    (sessions : ι → Session) (actions : List (WireAction ι))
    (fits :
      EveryStep (WireKitting.step setup)
        (fun wire action => action.Fits setup wire)
        (WireKitting.start db sessions) actions) :
    Represents setup
      (runActions (WireKitting.step setup) (WireKitting.start db sessions)
        actions)
      (runActions (Kitting.step setup.server setup.browser)
        (Kitting.start db)
        (exchangedActions setup (WireKitting.start db sessions) actions)) :=
  run_represents ⟨rfl, rfl, List.Forall₂.nil, rfl⟩
    (settled_start names sessions) actions fits

/-- The state is settled and represents one that the pages and the server
reach. -/
structure Reached
    (setup : Setup) (db : Db) (wire : WireKitting ι) : Prop where
  settled : Settled setup wire
  represents :
    ∃ exchanged : List KittingAction,
      Represents setup wire
        (runActions (Kitting.step setup.server setup.browser)
          (Kitting.start db) exchanged)

omit [DecidableEq ι] in
theorem reached_start {db : Db} (names : NamesValid setup.server db)
    (sessions : ι → Session) :
    Reached setup db (WireKitting.start db sessions) :=
  ⟨settled_start names sessions, [], ⟨rfl, rfl, List.Forall₂.nil, rfl⟩⟩

theorem reached_step {db : Db} (wire : WireKitting ι) (action : WireAction ι)
    (reached : Reached setup db wire) (fits : action.Fits setup wire) :
    Reached setup db (wire.step setup action) := by
  obtain ⟨settled, exchanged, represents⟩ := reached
  obtain ⟨kept, same⟩ := step_represents represents settled fits
  refine ⟨kept, exchanged ++ action.exchanged setup wire, ?_⟩
  rw [runActions_append]
  exact same

/-- Whatever is typed and in whatever order requests arrive, the items in
stock and in the groups of a class stay the same in number. -/
theorem everyState_wire_accounted
    (setup : Setup) (db : Db) (names : NamesValid setup.server db)
    (nonneg : db.NonnegInventories) (identified : db.GroupsIdentified)
    (sessions : ι → Session) (actions : List (WireAction ι))
    (fits :
      EveryStep (WireKitting.step setup)
        (fun wire action => action.Fits setup wire)
        (WireKitting.start db sessions) actions) :
    EveryState (WireKitting.step setup)
      (fun wire => Accounted db wire.db)
      (WireKitting.start db sessions) actions := by
  apply
    (everyState_invariant (Reached setup db) reached_step
      (reached_start names sessions) fits).imp
  rintro wire ⟨_, exchanged, represents⟩
  rw [← represents.db]
  exact
    runActions_invariant (fun kitting : Kitting => Accounted db kitting.db)
      (fun _ action accounted _ =>
        step_accounted setup.server identified accounted action)
      ⟨nonneg, fun _ => rfl, rfl⟩
      (everyStep_of_forall (fun _ _ => trivial) _ exchanged)

end

end

/-! ## A run of two browsers -/

def Setup.plain : Setup where
  server := Server.plain
  runtime := documentRuntime
  browser := Browser.exact
  numberText := decimal
  limit := 1000
  decodes := decodes_documentRuntime
  enough := by decide

/-- Bob in one browser, and nobody in the other one. -/
def bobAndNobody : Bool → Session
  | true => bobSession
  | false => Session.fresh

/-- Both follow a link to the kit; Bob takes two bolts, and his post is
served. -/
def takeTwo : List (WireAction Bool) :=
  [.openKit true 1 0 10 11, .openKit false 1 0 12 13, .serve 0, .deliver 0,
    .edit 0 0 "2".toList, .tick 0 14, .serve 0, .deliver 0]

theorem names_staffed : NamesValid Server.plain staffed :=
  (by decide :
    ∀ row ∈ staffed.users.rows,
      Server.plain.encoding.valid row.username = true)

theorem takeTwo_fits :
    EveryStep (WireKitting.step Setup.plain)
      (fun wire action => action.Fits Setup.plain wire)
      (WireKitting.start staffed bobAndNobody) takeTwo := by
  refine
    ⟨(by decide : Machine 1 ∧ Machine 0), (by decide : Machine 1 ∧ Machine 0),
      trivial, trivial, trivial, ?_, trivial, trivial, trivial⟩
  rintro entry ⟨⟩
  decide

theorem actions_represented_takeTwo :
    Represents Setup.plain
      (runActions (WireKitting.step Setup.plain)
        (WireKitting.start staffed bobAndNobody) takeTwo)
      (runActions (Kitting.step Server.plain Browser.exact)
        (Kitting.start staffed)
        (exchangedActions Setup.plain (WireKitting.start staffed bobAndNobody)
          takeTwo)) :=
  actions_represented Setup.plain staffed names_staffed bobAndNobody takeTwo
    takeTwo_fits

example :
    (runActions (WireKitting.step Setup.plain)
        (WireKitting.start staffed bobAndNobody) takeTwo).db.groups.map
      GroupRow.count = [2, 0] := by
  decide

theorem everyState_wire_accounted_takeTwo :
    EveryState (WireKitting.step Setup.plain)
      (fun wire => Accounted staffed wire.db)
      (WireKitting.start staffed bobAndNobody) takeTwo :=
  everyState_wire_accounted Setup.plain staffed names_staffed
    (by decide : ∀ row ∈ staffed.classes.rows, 0 ≤ row.inventory)
    (by decide : (staffed.groups.map GroupRow.key).Nodup) bobAndNobody
    takeTwo takeTwo_fits

end LtlsKitting.Client
