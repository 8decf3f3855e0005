import LtlsKitting.Web.Http

/-!
# Pages and calls of pages

The pages that `display.php` and `pages.php` choose, and the calls a loaded
page makes, which `ajax.php` answers.  Opening the page of a kit assigns the
kit, and every page of the kitting starts an external command.
-/

namespace LtlsKitting.Web

open LtlsKitting.Php LtlsKitting.Store LtlsKitting.Operations
open LtlsKitting.Sync LtlsKitting.Interaction

/-! ## Pages -/

def ledOff : Bytes :=
  bytes "python scripts/led.py 3"

def processManager : Bytes :=
  bytes "./processmanager rfid ./rfidhandler 137.226.151.151 &>/dev/null </dev/null &"

/-- Who opens a kit takes it over, except the administrator. -/
def assignOpened (role : Role) (kit : KitRow) : Php Unit :=
  if role.isAdmin then pure () else query (.assignKit role.id kit.id)

def pageKit (role : Role) (order : OrderRow) (kit : KitRow) : Php Content := do
  assignOpened role kit
  query (.shell processManager)
  pure (.kit order.id kit.id kit.status)

/-- Opening a kit page assigns every kit of that number. -/
theorem exec_pageKit
    (server : Server) (role : Role) (order : OrderRow) (kit : KitRow)
    (db : Db) :
    (pageKit role order kit).exec (perform server) db =
      if role.isAdmin then db else db.assignKit role.id kit.id := by
  simp only [pageKit]
  rw [Program.exec_bind]
  simp only [assignOpened]
  split <;> rfl

def pageOrder (order : OrderRow) : Php Content := do
  query (.shell ledOff)
  let kits ← query (.listKits order.id)
  pure (.order order.id kits)

def pageKitting : Php Content := do
  query (.shell ledOff)
  let orders ← query .listOrders
  pure (.kitting orders)

def pageOverview (role : Role) : Php Content := do
  query (.shell ledOff)
  pure (.overview role.isAdmin)

/-- The choice of `pages.php`. -/
def pages
    (role : Role) (get : Params)
    (order : Option OrderRow) (kit : Option KitRow) : Php Content :=
  if get.hasValue (bytes "scenario") (bytes "kitting") then
    match order, kit with
    | some currentOrder, some currentKit =>
        pageKit role currentOrder currentKit
    | some currentOrder, none => pageOrder currentOrder
    | none, _ => pageKitting
  else if get.hasValue (bytes "scenario") (bytes "init") then
    pure (if role.isAdmin then .initForm else .nothing)
  else
    pageOverview role

/-- The part of the page below the messages. -/
def pageContent
    (role : Option Role) (get : Params)
    (order : Option OrderRow) (kit : Option KitRow) : Php Content :=
  match role with
  | none => pure .login
  | some current => pages current get order kit

def display
    (role : Option Role) (get : Params) (messages : List Message)
    (order : Option OrderRow) (kit : Option KitRow) : Php Reply := do
  let content ← pageContent role get order kit
  pure
    (.page (role.map Role.name) (messages.map Alert.ofMessage) content)

/-! ## Calls of a loaded page -/

/-- The printed file. -/
def certificate (runtime : Runtime) : Param → Bytes
  | .text material =>
      if runtime.looselyZero material then
        bytes "cert/seal.pdf"
      else
        bytes "cert/cert.txt"
  | .array _ => bytes "cert/cert.txt"

def printCommand (runtime : Runtime) (material : Param) : Bytes :=
  bytes "python scripts/print.py /var/www/ltls/localhost/" ++
    certificate runtime material

/-- `str_replace("-", " ", $location)`, spliced into the command. -/
def locationText : Param → Bytes
  | .text location =>
      location.map (fun byte => if byte == 45 then 32 else byte)
  | .array _ => bytes "Array"

def ledCommand (get : Params) : Bytes :=
  let location := (get.value (bytes "location")).getD (.text [])
  let state := (get.value (bytes "state")).getD (.text (bytes "0"))
  bytes "python scripts/led.py " ++ state.spliced ++ bytes " " ++
    locationText location

/-- The documents of the posted array that pass the checks of the loop. -/
def postedRequests (runtime : Runtime) (post : Params) : List SyncRequest :=
  match post.value (bytes "requests") with
  | some (.array requests) =>
      requests.filterMap (fun request =>
        match request with
        | .text document => decodeRequest (runtime.jsonDecode document)
        | .array _ => none)
  | _ => []

def ajax
    (runtime : Runtime) (request : HttpRequest)
    (order : Option OrderRow) (kit : Option KitRow) : Php Reply :=
  match
    request.get.value (bytes "print"), request.get.value (bytes "material") with
  | some _, some material => do
      query (.shell (printCommand runtime material))
      pure .printed
  | _, _ =>
      if request.get.has (bytes "cabinet") then do
        query (.shell (ledCommand request.get))
        pure (.led (ledCommand request.get))
      else
        match order, kit with
        | some currentOrder, some currentKit => do
            let rows ←
              syncKit currentOrder.id currentKit.id
                (postedRequests runtime request.post)
            pure (.goals rows)
        | _, _ => pure .noKit

end LtlsKitting.Web
