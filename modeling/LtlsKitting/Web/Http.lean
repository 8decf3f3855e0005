import LtlsKitting.Operations.Script
import LtlsKitting.Sync.Requests

/-!
# Requests, sessions and replies

The request parameters, the session variables and the replies of `index.php`.
Of a page, the parts that depend on data are kept; fixed markup is not
modelled.  `$_REQUEST` is composed of other parameters in a configured order,
so it is a list of its own.
-/

namespace LtlsKitting.Web

open LtlsKitting.Php LtlsKitting.Store LtlsKitting.Operations
open LtlsKitting.Relational

/-- What the server reads from a request. -/
structure HttpRequest where
  get : Params
  post : Params
  request : Params

/-- The session variables; `none` is a variable that is not set. -/
structure Session where
  roleId : Option Int
  roleName : Option Bytes
  messages : Option (List Message)

/-- The session before its first request. -/
def Session.fresh : Session where
  roleId := none
  roleName := none
  messages := none

/-- The environment of the scripts: the name of the server, the decoder of
posted documents, and the loose comparison with `"0"`, which treats numeric
texts according to the version of the language. -/
structure Runtime where
  serverName : Bytes
  jsonDecode : Bytes → Option Json
  looselyZero : Bytes → Bool

/-- A runtime that decodes no document and compares no numbers. -/
def Runtime.plain : Runtime where
  serverName := bytes "localhost"
  jsonDecode := fun _ => none
  looselyZero := fun text => text == bytes "0"

/-- The user a request is executed under. -/
structure Role where
  id : Int
  name : Bytes
  deriving DecidableEq, Repr

/-! ## The configuration -/

def ltlsAdmin : Int := -1

def ltlsAdminAlias : Bytes := bytes "Administrator"

def ltlsAdminPasswd : Bytes := bytes "admin"

def Role.admin : Role where
  id := ltlsAdmin
  name := ltlsAdminAlias

def Role.ofRow (row : UserRow) : Role where
  id := row.id
  name := row.username

def Role.isAdmin (role : Role) : Bool :=
  role.id == ltlsAdmin

/-! ## Replies -/

/-- The part of a page below the messages. -/
inductive Content where
  | login
  | kit (orderId kitId status : Int)
  | order (orderId : Int) (kits : List (KitRow × Option Bytes))
  | kitting (orders : List OrderRow)
  | initForm
  | nothing
  | overview (initLink : Bool)

/-- The shown parts of a message, its class and its text. -/
structure Alert where
  style : Option Bytes
  text : Option Bytes
  deriving DecidableEq, Repr

inductive Reply where
  | redirect (location : Bytes)
  | page (userinfo : Option Bytes) (alerts : List Alert) (content : Content)
  | printed
  | led (command : Bytes)
  | noKit
  | goals (rows : List Goal)

/-- The rendering of a message shows its first two texts. -/
def Alert.ofMessage (message : Message) : Alert where
  style := message[0]?
  text := message[1]?

def hexDigit (value : UInt8) : UInt8 :=
  if value < 10 then 48 + value else 55 + value

/-- The encoding `urlencode` of one byte. -/
def urlencodeByte (byte : UInt8) : Bytes :=
  if isAlnum byte || byte == 45 || byte == 46 || byte == 95 then
    [byte]
  else if byte == 32 then
    [43]
  else
    [37, hexDigit (byte / 16), hexDigit (byte % 16)]

def urlencode (text : Bytes) : Bytes :=
  text.flatMap urlencodeByte

/-- The target of the redirection after a post. -/
def redirectLocation (runtime : Runtime) (get : Params) : Bytes :=
  bytes "Location: http://" ++ runtime.serverName ++
    if get.isEmpty then
      []
    else
      bytes "?" ++
        implode 38
          (get.map (fun entry =>
            entry.1 ++ bytes "=" ++ urlencode entry.2.scalar))

/-- Two users whose names differ only in case, with the passwords `a` and
`b`. -/
def staffed : Db :=
  { Db.bolts with
    users :=
      (SerialTable.empty.insert
        (fun id =>
          { id := id
            username := bytes "Bob"
            password := some (Server.plain.md5 (bytes "a")) })
        (fun _ => rfl)).insert
        (fun id =>
          { id := id
            username := bytes "bob"
            password := some (Server.plain.md5 (bytes "b")) })
        (fun _ => rfl) }

/-- The session of the first of them. -/
def bobSession : Session where
  roleId := some 1
  roleName := some (bytes "Bob")
  messages := some []

end LtlsKitting.Web
