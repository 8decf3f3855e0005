import LtlsKitting.Store.Stock

/-!
# The synchronisation requests of a kit

A kit page posts an array of documents.  A document that has a negative
status addresses one row of the kit: its value is withdrawn from or returned
to the stock, and if it asks for a tag, a free tag is assigned.  Any other
document stores the status of the kit.  After all documents the rows of the
kit are returned.

The statements of one document are separate: nothing locks the rows between
them.
-/

namespace LtlsKitting.Sync

open LtlsKitting.Php LtlsKitting.Store LtlsKitting.Interaction

/-- A document of the posted array that passes the checks of the loop. -/
inductive SyncRequest where
  | row (id value : Int) (tag : Bool)
  | status (status : Int)
  deriving DecidableEq, Repr

/-- What the loop makes of a decoded document. -/
def decodeRequest : Option Json → Option SyncRequest
  | some (.object properties) =>
      let id := Json.property (bytes "id") properties
      let value := Json.property (bytes "value") properties
      let tag := Json.property (bytes "tag") properties
      let status := Json.property (bytes "status") properties
      if id.isSet && value.isSet && tag.isSet then
        if status.intval < 0 then
          some (.row id.intval value.intval tag.truthy)
        else
          some (.status status.intval)
      else
        none
  | _ => none

/-- Picks the first tag of the database that is not associated to a group. -/
def createTag : Php (Option Bytes) :=
  query .freeTag

/-- The count update, sent only if the take affected a row. -/
def updateCount
    (key : GroupKey) (value : Int) (affected : Nat) : Php Unit :=
  if 0 < affected then query (.setCount key value) else pure ()

/-- The tag assignment, sent only if the document asks for it.  A tag of the
database has no zero byte, so its literal is the tag. -/
def assignTag (key : GroupKey) (tag : Bool) : Php Unit :=
  if tag then do
    let free ← createTag
    query (.setTag key free)
  else
    pure ()

/-- One document of the posted array. -/
def processRequest (orderId kitId : Int) : SyncRequest → Php Unit
  | .row id value tag => do
      let affected ← query (.takeStock ⟨orderId, kitId, id⟩ value)
      updateCount ⟨orderId, kitId, id⟩ value affected
      assignTag ⟨orderId, kitId, id⟩ tag
  | .status status => query (.setStatus orderId kitId status)

/-- The loop over the posted array. -/
def requestsLoop (orderId kitId : Int) : List SyncRequest → Php Unit
  | [] => pure ()
  | request :: rest => do
      processRequest orderId kitId request
      requestsLoop orderId kitId rest

/-- The answer to a synchronisation of an existing kit. -/
def syncKit
    (orderId kitId : Int) (requests : List SyncRequest) : Php (List Goal) := do
  requestsLoop orderId kitId requests
  query (.kitGoals orderId kitId)

/-- The group that a row request addresses. -/
def SyncRequest.key? (orderId kitId : Int) : SyncRequest → Option GroupKey
  | .row id _ _ => some ⟨orderId, kitId, id⟩
  | .status _ => none

/-! ## What an uninterrupted request does -/

/-- The take statement followed by its count update. -/
def withdraw (db : Db) (key : GroupKey) (value : Int) : Db :=
  if 0 < db.takeAffected key value then
    (db.takeStock key value).setCount key value
  else
    db.takeStock key value

/-- The tag assignment of a request. -/
def label (db : Db) (key : GroupKey) (tag : Bool) : Db :=
  if tag then db.setTag key db.freeTag else db

/-- The store after one request. -/
def applyRequest (db : Db) (orderId kitId : Int) : SyncRequest → Db
  | .row id value tag =>
      label (withdraw db ⟨orderId, kitId, id⟩ value) ⟨orderId, kitId, id⟩ tag
  | .status status => db.setStatus orderId kitId status

section

variable (server : Server)

theorem exec_updateCount
    (db : Db) (key : GroupKey) (value : Int) (affected : Nat) :
    (updateCount key value affected).exec (perform server) db =
      if 0 < affected then db.setCount key value else db := by
  simp only [updateCount]
  split <;> rfl

theorem exec_assignTag (db : Db) (key : GroupKey) (tag : Bool) :
    (assignTag key tag).exec (perform server) db = label db key tag := by
  cases tag <;> rfl

/-- Executed without interruption, a request has the effect that
`applyRequest` describes. -/
theorem exec_processRequest
    (db : Db) (orderId kitId : Int) (request : SyncRequest) :
    (processRequest orderId kitId request).exec (perform server) db =
      applyRequest db orderId kitId request := by
  cases request with
  | row id value tag =>
      simp only [processRequest]
      rw [Program.exec_bind, Program.exec_bind, exec_assignTag,
        exec_updateCount]
      rfl
  | status status =>
      rfl

theorem exec_requestsLoop
    (db : Db) (orderId kitId : Int) (requests : List SyncRequest) :
    (requestsLoop orderId kitId requests).exec (perform server) db =
      runActions (fun current request =>
        applyRequest current orderId kitId request) db requests := by
  induction requests generalizing db with
  | nil =>
      rfl
  | cons request rest inductionHypothesis =>
      rw [requestsLoop, Program.exec_bind, exec_processRequest,
        inductionHypothesis]
      rfl

theorem exec_syncKit
    (db : Db) (orderId kitId : Int) (requests : List SyncRequest) :
    (syncKit orderId kitId requests).exec (perform server) db =
      runActions (fun current request =>
        applyRequest current orderId kitId request) db requests := by
  simp only [syncKit]
  rw [Program.exec_bind, exec_requestsLoop]
  rfl

end

theorem withdraw_of_not_accepts {db : Db} {key : GroupKey} {value : Int}
    (refused : ¬ db.Accepts key value) : withdraw db key value = db := by
  simp only [withdraw]
  rw [if_neg (fun affected =>
    refused ((db.accepts_iff_affected key value).mp affected))]
  exact Db.takeStock_of_not_accepts refused

theorem withdraw_of_accepts {db : Db} {key : GroupKey} {value : Int}
    (accepted : db.Accepts key value) :
    withdraw db key value = (db.takeStock key value).setCount key value := by
  simp only [withdraw]
  rw [if_pos ((db.accepts_iff_affected key value).mpr accepted)]

end LtlsKitting.Sync
