import LtlsKitting.Client.Page

/-!
# What a tick makes the server do

A row posts the integer at the start of its input; if there is none, or no
input, it posts null, and the server skips the document.  The document of the
status has no value either, but its texts are set, and its status is not
negative, so it comes last and stores the status of the kit.
-/

namespace LtlsKitting.Client

open LtlsKitting.Php LtlsKitting.Store LtlsKitting.Sync
open LtlsKitting.Interaction

/-- The request that the server makes of the document of a row. -/
def rowRequest (browser : Browser) (row : Row) : Option SyncRequest :=
  decodeRequest (some (rowDocument browser row))

/-- The requests that the server makes of a posted table. -/
def postedRequests (browser : Browser) (table : Table) : List SyncRequest :=
  (syncDocuments browser table).filterMap
    (fun document => decodeRequest (some document))

/-- The status request, if there are rows. -/
def statusRequests (table : Table) : List SyncRequest :=
  if table.isEmpty then [] else [.status (tableStatus table)]

/-- The loop reads the four properties of a document. -/
theorem decodeRequest_document (id value tag status : Json) :
    decodeRequest
        (some
          (.object
            [(bytes "id", id), (bytes "value", value), (bytes "tag", tag),
              (bytes "status", status)])) =
      if id.isSet && value.isSet && tag.isSet then
        if status.intval < 0 then
          some (.row id.intval value.intval tag.truthy)
        else
          some (.status status.intval)
      else
        none := rfl

section

variable {browser : Browser}

theorem postedNumber_of_safe {text : Text} {value : Int}
    (read : parseInt text = some value) (safe : Safe value) :
    postedNumber browser text = .int value := by
  simp only [postedNumber, read, browser.posted_safe value safe]

theorem rowRequest_of_locked {row : Row} (locked : inputText row = none) :
    rowRequest browser row = none := by
  simp only [rowRequest, rowDocument, locked]
  rw [decodeRequest_document]
  simp [Json.isSet]

theorem rowRequest_of_unread {row : Row} {text : Text}
    (typed : inputText row = some text) (unread : parseInt text = none) :
    rowRequest browser row = none := by
  simp only [rowRequest, rowDocument, typed, postedNumber, unread]
  rw [decodeRequest_document]
  simp [Json.isSet]

/-- A safe integer is posted, if the id is. -/
theorem rowRequest_eq_of_read {row : Row} {text : Text} {value : Int}
    (typed : inputText row = some text) (read : parseInt text = some value)
    (safeValue : Safe value) :
    rowRequest browser row =
      if (postedNumber browser (numeral row.id)).isSet then
        some
          (.row (postedNumber browser (numeral row.id)).intval value
            (labelRequested row))
      else
        none := by
  simp only [rowRequest, rowDocument, typed,
    postedNumber_of_safe read safeValue]
  rw [decodeRequest_document]
  simp [Json.isSet, Json.intval, Json.truthy]

theorem rowRequest_of_read {row : Row} {text : Text} {value : Int}
    (typed : inputText row = some text) (read : parseInt text = some value)
    (safeValue : Safe value) (safeId : Safe row.id) :
    rowRequest browser row =
      some (.row row.id value (labelRequested row)) := by
  rw [rowRequest_eq_of_read typed read safeValue,
    postedNumber_of_safe (parseInt_numeral row.id) safeId]
  rfl

/-- The status is not negative. -/
theorem decodeRequest_statusDocument (table : Table) :
    decodeRequest (some (statusDocument table)) =
      some (.status (tableStatus table)) := by
  have notNegative : ¬ tableStatus table < 0 := by
    simp only [tableStatus]
    split
    · decide
    · split <;> decide
  rw [statusDocument, decodeRequest_document]
  simp [Json.isSet, Json.intval, notNegative]

theorem postedRequests_eq (table : Table) :
    postedRequests browser table =
      table.filterMap (rowRequest browser) ++ statusRequests table := by
  simp only [postedRequests, syncDocuments, List.filterMap_append,
    List.filterMap_map]
  congr 1
  simp only [statusRequests]
  split
  · rfl
  · rw [List.filterMap_cons, decodeRequest_statusDocument]
    rfl

end

/-! ## The statements that are executed -/

/-- The statements of one take, with a tag attempt if it is asked for. -/
structure TakeBlock
    (key : GroupKey) (value : Int) (tag : Bool) (block : List Effect) :
    Prop where
  statements :
    ∃ counted labelled,
      block = .takeStock key value :: (counted ++ labelled) ∧
        (counted = [] ∨ counted = [.setCount key value]) ∧
        if tag then
          ∃ free, labelled = [.freeTag, .setTag key free]
        else
          labelled = []

/-- The statements that a row makes the server execute. -/
structure RowBlock
    (orderId kitId : Int) (row : Row) (block : List Effect) : Prop where
  locked : inputText row = none → block = []
  unread :
    ∀ text, inputText row = some text → parseInt text = none → block = []
  taken :
    ∀ text value, inputText row = some text → parseInt text = some value →
      Safe value → Safe row.id →
        TakeBlock ⟨orderId, kitId, row.id⟩ value (labelRequested row) block

section

variable (server : Server)

theorem trace_processRequest_row
    (db : Db) (orderId kitId id value : Int) (tag : Bool) :
    TakeBlock ⟨orderId, kitId, id⟩ value tag
      ((processRequest orderId kitId (.row id value tag)).trace
        (perform server) db) := by
  have counted :
      ∀ (current : Db) (affected : Nat),
        (updateCount ⟨orderId, kitId, id⟩ value affected).trace
            (perform server) current = [] ∨
          (updateCount ⟨orderId, kitId, id⟩ value affected).trace
            (perform server) current =
              [.setCount ⟨orderId, kitId, id⟩ value] := by
    intro current affected
    simp only [updateCount]
    split
    · exact Or.inr rfl
    · exact Or.inl rfl
  have labelled :
      ∀ current : Db,
        if tag then
          ∃ free,
            (assignTag ⟨orderId, kitId, id⟩ tag).trace (perform server)
                current =
              [.freeTag, .setTag ⟨orderId, kitId, id⟩ free]
        else
          (assignTag ⟨orderId, kitId, id⟩ tag).trace (perform server)
            current = [] := by
    intro current
    cases tag with
    | false => rfl
    | true => exact ⟨current.freeTag, rfl⟩
  have taken :
      (query (.takeStock ⟨orderId, kitId, id⟩ value)).trace (perform server)
          db =
        [.takeStock ⟨orderId, kitId, id⟩ value] := rfl
  simp only [processRequest]
  rw [Program.trace_bind, Program.trace_bind, taken, List.singleton_append]
  exact ⟨_, _, rfl, counted _ _, labelled _⟩

theorem trace_requestsLoop_append
    (db : Db) (orderId kitId : Int) (first second : List SyncRequest) :
    (requestsLoop orderId kitId (first ++ second)).trace (perform server) db =
      (requestsLoop orderId kitId first).trace (perform server) db ++
        (requestsLoop orderId kitId second).trace (perform server)
          ((requestsLoop orderId kitId first).exec (perform server) db) := by
  induction first generalizing db with
  | nil =>
      rfl
  | cons request rest inductionHypothesis =>
      simp only [List.cons_append, requestsLoop]
      rw [Program.trace_bind, Program.trace_bind, Program.exec_bind,
        inductionHypothesis, List.append_assoc]

/-- The statements of the rows, block by block. -/
theorem trace_rows
    (browser : Browser) (db : Db) (orderId kitId : Int) (table : Table) :
    ∃ blocks : List (List Effect),
      (requestsLoop orderId kitId (table.filterMap (rowRequest browser))).trace
          (perform server) db =
        blocks.flatten ∧
      List.Forall₂ (RowBlock orderId kitId) table blocks := by
  induction table generalizing db with
  | nil =>
      exact ⟨[], rfl, List.Forall₂.nil⟩
  | cons row rows inductionHypothesis =>
      cases decoded : rowRequest browser row with
      | none =>
          obtain ⟨blocks, executed, related⟩ := inductionHypothesis db
          refine ⟨[] :: blocks, ?_, List.Forall₂.cons ?_ related⟩
          · rw [List.filterMap_cons, decoded]
            exact executed
          · refine ⟨fun _ => rfl, fun _ _ _ => rfl, ?_⟩
            intro text value typed read safeValue safeId
            rw [rowRequest_of_read typed read safeValue safeId] at decoded
            cases decoded
      | some request =>
          obtain ⟨blocks, executed, related⟩ :=
            inductionHypothesis
              ((processRequest orderId kitId request).exec (perform server) db)
          refine
            ⟨(processRequest orderId kitId request).trace (perform server) db ::
              blocks, ?_, List.Forall₂.cons ?_ related⟩
          · rw [List.filterMap_cons, decoded]
            simp only [requestsLoop]
            rw [Program.trace_bind, executed]
            rfl
          · refine ⟨?_, ?_, ?_⟩
            · intro locked
              rw [rowRequest_of_locked locked] at decoded
              cases decoded
            · intro text typed unread
              rw [rowRequest_of_unread typed unread] at decoded
              cases decoded
            · intro text value typed read safeValue safeId
              rw [rowRequest_of_read typed read safeValue safeId] at decoded
              cases decoded
              exact trace_processRequest_row server db _ _ _ _ _

end

/-- For every table, the server executes the statements of its rows in order
and, if there are rows, stores the status of the kit in the end. -/
theorem posted_table_executed
    (server : Server) (browser : Browser) (db : Db) (orderId kitId : Int)
    (table : Table) :
    ∃ blocks : List (List Effect),
      (requestsLoop orderId kitId (postedRequests browser table)).trace
          (perform server) db =
        blocks.flatten ++
          (if table.isEmpty then []
            else [.setStatus orderId kitId (tableStatus table)]) ∧
      List.Forall₂ (RowBlock orderId kitId) table blocks := by
  obtain ⟨blocks, executed, related⟩ :=
    trace_rows server browser db orderId kitId table
  refine ⟨blocks, ?_, related⟩
  rw [postedRequests_eq, trace_requestsLoop_append, executed]
  congr 1
  simp only [statusRequests]
  split <;> rfl

end LtlsKitting.Client
