import LtlsKitting.Client.Table
import LtlsKitting.Sync.Requests
import LtlsKitting.Web.Pages

/-!
# Kit pages and the server

A page posts its whole table at every tick, whether or not earlier posts have
been answered, and applies a response when it arrives.  The server processes
one post after the other.  Posts and responses are under way for any time and
may overtake each other.
-/

namespace LtlsKitting.Client

open LtlsKitting.Php LtlsKitting.Store LtlsKitting.Sync LtlsKitting.Web
open LtlsKitting.Interaction

/-- The variables of a page.  `timestamp` is one global variable for all
posts. -/
structure Page where
  orderId : Int
  kitId : Int
  latestSync : Nat
  timestamp : Nat
  globalloc : Bytes
  table : Table

/-! ## What a tick posts -/

/-- A parsed text as a posted number; what is not a number is posted as
null. -/
def postedNumber (browser : Browser) (text : Text) : Json :=
  match parseInt text with
  | some value => browser.posted value
  | none => .null

/-- The text of the input; a locked row has none. -/
def inputText (row : Row) : Option Text :=
  match row.cells with
  | .locked _ _ _ => none
  | .unlocked value _ _ => some value

/-- A label was requested and the row was not replaced since. -/
def labelRequested (row : Row) : Bool :=
  match row.cells with
  | .locked _ _ _ => false
  | .unlocked _ _ requested => requested

def rowDocument (browser : Browser) (row : Row) : Json :=
  .object
    [(bytes "id", postedNumber browser (numeral row.id)),
      (bytes "value",
        match inputText row with
        | some value => postedNumber browser value
        | none => .null),
      (bytes "tag", .bool (labelRequested row)),
      (bytes "status", .int (-1))]

def isFinal (row : Row) : Bool :=
  match row.cells with
  | .locked _ _ archived => archived
  | .unlocked _ _ _ => false

def isReady (row : Row) : Bool :=
  match row.cells with
  | .locked _ _ archived => !archived
  | .unlocked _ _ _ => false

/-- The status of the kit as the table shows it. -/
def tableStatus (table : Table) : Int :=
  if table.any isFinal then 2 else if table.any isReady then 1 else 0

def statusDocument (table : Table) : Json :=
  .object
    [(bytes "id", .string []), (bytes "value", .string []),
      (bytes "tag", .string []), (bytes "status", .int (tableStatus table))]

/-- The posted documents: one for each row and, if there are rows, one for
the status. -/
def syncDocuments (browser : Browser) (table : Table) : List Json :=
  table.map (rowDocument browser) ++
    if table.isEmpty then [] else [statusDocument table]

/-- The row needs more items than its input says. -/
def isShort (browser : Browser) (row : Row) : Bool :=
  match (inputText row).bind parseInt, parseInt (numeral row.target) with
  | some value, some target => browser.below value target
  | _, _ => false

/-- The locations of the rows that need more items, each followed by a
hyphen. -/
def locList (browser : Browser) (table : Table) : Bytes :=
  (table.filter (isShort browser)).flatMap (fun row => row.location ++ [45])

/-! ## The page -/

/-- A row whose input was edited. -/
def editRow (text : Text) (row : Row) : Row :=
  match row.cells with
  | .locked _ _ _ => row
  | .unlocked _ disabled requested =>
      { row with cells := .unlocked text disabled requested }

/-- A row whose button was clicked; a disabled button does not react. -/
def clickRow (row : Row) : Row :=
  match row.cells with
  | .locked _ _ _ => row
  | .unlocked value disabled requested =>
      { row with cells := .unlocked value disabled (requested || !disabled) }

def Page.edit (page : Page) (row : Nat) (text : Text) : Page :=
  { page with table := page.table.modify row (editRow text) }

def Page.click (page : Page) (row : Nat) : Page :=
  { page with table := page.table.modify row clickRow }

/-- A page after it was loaded and has posted for the first time. -/
def Page.loaded (orderId kitId : Int) (loaded now : Nat) : Page where
  orderId := orderId
  kitId := kitId
  latestSync := loaded
  timestamp := now
  globalloc := []
  table := []

/-- The page after a tick. -/
def Page.syncKits (browser : Browser) (page : Page) (now : Nat) : Page :=
  { page with
    timestamp := now
    globalloc := locList browser page.table }

/-- The page after a response; the comparison reads the time of the latest
post and the time at which the page was loaded. -/
def Page.receive (browser : Browser) (page : Page) (data : List Goal) : Page :=
  if page.latestSync < page.timestamp then
    { page with table := syncResult browser data page.table }
  else
    page

/-! ## Pages and server -/

/-- A post under way. -/
structure Post where
  page : Nat
  orderId : Int
  kitId : Int
  documents : List Json

/-- The documents that pass the checks of the server. -/
def Post.requests (post : Post) : List SyncRequest :=
  post.documents.filterMap (fun document => decodeRequest (some document))

/-- A response under way. -/
structure Response where
  page : Nat
  goals : List Goal

structure Kitting where
  db : Db
  pages : List Page
  posts : List Post
  responses : List Response

inductive KittingAction where
  | openKit (role : Role) (orderId kitId : Int) (loaded now : Nat)
  | edit (page row : Nat) (text : Text)
  | click (page row : Nat)
  | tick (page now : Nat)
  | serve (post : Nat)
  | deliver (response : Nat)

/-- No page is open. -/
def Kitting.start (db : Db) : Kitting where
  db := db
  pages := []
  posts := []
  responses := []

/-- A page of an existing kit is opened. -/
def Kitting.openKit
    (server : Server) (kitting : Kitting) (role : Role) (orderId kitId : Int)
    (loaded now : Nat) : Kitting :=
  match kitting.db.orders.lookup orderId, kitting.db.findKit orderId kitId with
  | some order, some kit =>
      { kitting with
        db := (pageKit role order kit).exec (perform server) kitting.db
        pages := kitting.pages ++ [Page.loaded orderId kitId loaded now]
        posts :=
          kitting.posts ++ [⟨kitting.pages.length, orderId, kitId, []⟩] }
  | _, _ => kitting

/-- A page posts its table. -/
def Kitting.tick
    (browser : Browser) (kitting : Kitting) (page now : Nat) : Kitting :=
  match kitting.pages[page]? with
  | some current =>
      { kitting with
        pages := kitting.pages.set page (current.syncKits browser now)
        posts :=
          kitting.posts ++
            [⟨page, current.orderId, current.kitId,
              syncDocuments browser current.table⟩] }
  | none => kitting

/-- The server processes a post.  A kit that does not exist is answered by an
error, which the page does not handle. -/
def Kitting.serve (server : Server) (kitting : Kitting) (index : Nat) :
    Kitting :=
  match kitting.posts[index]? with
  | some post =>
      match
        kitting.db.orders.lookup post.orderId,
          kitting.db.findKit post.orderId post.kitId with
      | some order, some kit =>
          { kitting with
            db :=
              (syncKit order.id kit.id post.requests).exec (perform server)
                kitting.db
            posts := kitting.posts.eraseIdx index
            responses :=
              kitting.responses ++
                [⟨post.page,
                  (syncKit order.id kit.id post.requests).eval
                    (perform server) kitting.db⟩] }
      | _, _ => { kitting with posts := kitting.posts.eraseIdx index }
  | none => kitting

/-- A response reaches its page. -/
def Kitting.deliver
    (browser : Browser) (kitting : Kitting) (index : Nat) : Kitting :=
  match kitting.responses[index]? with
  | some response =>
      { kitting with
        pages :=
          kitting.pages.modify response.page
            (fun page => page.receive browser response.goals)
        responses := kitting.responses.eraseIdx index }
  | none => kitting

def Kitting.step
    (server : Server) (browser : Browser) (kitting : Kitting) :
    KittingAction → Kitting
  | .openKit role orderId kitId loaded now =>
      kitting.openKit server role orderId kitId loaded now
  | .edit page row text =>
      { kitting with
        pages :=
          kitting.pages.modify page (fun current => current.edit row text) }
  | .click page row =>
      { kitting with
        pages :=
          kitting.pages.modify page (fun current => current.click row) }
  | .tick page now => kitting.tick browser page now
  | .serve post => kitting.serve server post
  | .deliver response => kitting.deliver browser response

/-- Opening a page changes neither the groups nor the classes. -/
theorem tables_pageKit
    (server : Server) (role : Role) (order : OrderRow) (kit : KitRow)
    (db : Db) :
    ((pageKit role order kit).exec (perform server) db).groups = db.groups ∧
      ((pageKit role order kit).exec (perform server) db).classes =
        db.classes := by
  rw [exec_pageKit]
  split <;> exact ⟨rfl, rfl⟩

/-- The store after a step: a page that is opened leaves the groups and the
classes, a post that is served is processed, and every other action leaves the
store. -/
theorem Kitting.step_store
    (server : Server) (browser : Browser) (kitting : Kitting)
    (action : KittingAction) :
    ((kitting.step server browser action).db.groups = kitting.db.groups ∧
      (kitting.step server browser action).db.classes = kitting.db.classes) ∨
      ∃ post ∈ kitting.posts, ∃ orderId kitId,
        (kitting.step server browser action).db =
          runActions
            (fun current request => applyRequest current orderId kitId request)
            kitting.db post.requests := by
  cases action with
  | openKit role orderId kitId loaded now =>
      left
      simp only [Kitting.step, Kitting.openKit]
      split
      · exact tables_pageKit server role _ _ kitting.db
      · exact ⟨rfl, rfl⟩
  | edit page row text =>
      exact Or.inl ⟨rfl, rfl⟩
  | click page row =>
      exact Or.inl ⟨rfl, rfl⟩
  | tick page now =>
      left
      simp only [Kitting.step, Kitting.tick]
      split <;> exact ⟨rfl, rfl⟩
  | serve index =>
      simp only [Kitting.step, Kitting.serve]
      cases found : kitting.posts[index]? with
      | none =>
          exact Or.inl ⟨rfl, rfl⟩
      | some post =>
          dsimp only
          split
          next order kit _ _ =>
            exact
              Or.inr
                ⟨post, List.mem_of_getElem? found, order.id, kit.id,
                  exec_syncKit server kitting.db order.id kit.id
                    post.requests⟩
          next =>
            exact Or.inl ⟨rfl, rfl⟩
  | deliver response =>
      left
      simp only [Kitting.step, Kitting.deliver]
      split <;> exact ⟨rfl, rfl⟩

end LtlsKitting.Client
