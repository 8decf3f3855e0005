import LtlsKitting.Client.Posting

/-!
# Kits that are reported as done

`sync_kits` sets a flag for each stage that some row has reached and posts the
furthest one; the server stores it, and the page of the order marks a kit of
that status as done.  One row that is labelled and archived is enough for
this, whatever the other rows are.  It also shows the panel with the
documentation and the seal, which is never hidden again.
-/

namespace LtlsKitting.Client

open LtlsKitting.Php LtlsKitting.Store LtlsKitting.Sync LtlsKitting.Web
open LtlsKitting.Interaction

/-- Whether the panel with the documentation and the seal is shown after a
tick.  It is faded in, and nothing hides it. -/
def showsNext (shown : Bool) (table : Table) : Bool :=
  shown || (!table.isEmpty && table.any isFinal)

/-- The panel after ticks of a page, given the tables at these ticks.  It is
hidden when the page is loaded. -/
def panelShown (tables : List Table) : Bool :=
  tables.foldl showsNext false

/-- The kits of the page of an order, with the mark `done`. -/
def doneMarks : Content → List (Int × Bool)
  | .order _ kits => kits.map (fun entry => (entry.1.id, entry.1.status == 2))
  | _ => []

/-- Every row is labelled and archived. -/
def Complete (table : Table) : Prop :=
  ∀ row ∈ table, isFinal row = true

/-- What a tick of a page, after the earlier ones, reports of its kit is that it
is done only if it is complete: in the posted status, in the stored one, on
the page of the order, and by the panel. -/
structure DoneOnlyIfComplete
    (server : Server) (browser : Browser) (db : Db) (order : OrderRow)
    (kitId : Int) (earlier : List Table) (table : Table) : Prop where
  posted :
    SyncRequest.status 2 ∈ postedRequests browser table → Complete table
  stored :
    ∀ kit ∈
        ((syncKit order.id kitId (postedRequests browser table)).exec
          (perform server) db).kits,
      kit.key = (order.id, kitId) → kit.status = 2 → Complete table
  marked :
    (kitId, true) ∈
        doneMarks
          ((pageOrder order).eval (perform server)
            ((syncKit order.id kitId (postedRequests browser table)).exec
              (perform server) db)) →
      Complete table
  panel : panelShown (earlier ++ [table]) = true → Complete table

theorem foldl_showsNext (tables : List Table) (shown : Bool) :
    tables.foldl showsNext shown = true ↔
      shown = true ∨ ∃ table ∈ tables, table.any isFinal = true := by
  induction tables generalizing shown with
  | nil => simp
  | cons table rest inductionHypothesis =>
      have step :
          showsNext shown table = true ↔
            shown = true ∨ table.any isFinal = true := by
        cases table <;> simp [showsNext]
      rw [List.foldl_cons, inductionHypothesis, step, or_assoc]
      simp only [List.mem_cons, exists_eq_or_imp]

/-- The panel is shown as soon as a row was final at a tick. -/
theorem panelShown_iff (tables : List Table) :
    panelShown tables = true ↔
      ∃ table ∈ tables, ∃ row ∈ table, isFinal row = true := by
  rw [panelShown, foldl_showsNext]
  simp

theorem tableStatus_eq_two_iff (table : Table) :
    tableStatus table = 2 ↔ table.any isFinal = true := by
  simp only [tableStatus]
  constructor
  · intro isTwo
    by_contra noFinal
    rw [if_neg noFinal] at isTwo
    split at isTwo
    · cases isTwo
    · cases isTwo
  · intro someFinal
    rw [if_pos someFinal]

/-- The document of a row does not store a status. -/
theorem rowRequest_ne_status (browser : Browser) (row : Row) (status : Int) :
    rowRequest browser row ≠ some (.status status) := by
  obtain ⟨value, isDocument⟩ :
      ∃ value,
        rowDocument browser row =
          .object
            [(bytes "id", postedNumber browser (numeral row.id)),
              (bytes "value", value),
              (bytes "tag", .bool (labelRequested row)),
              (bytes "status", .int (-1))] :=
    ⟨_, rfl⟩
  have negative : (Json.int (-1)).intval < 0 := by decide
  rw [rowRequest, isDocument, decodeRequest_document, if_pos negative]
  split
  · simp
  · simp

theorem status_of_mem_statusRequests {table : Table} {status : Int}
    (member : SyncRequest.status status ∈ statusRequests table) :
    status = tableStatus table := by
  simp only [statusRequests] at member
  split at member
  · cases member
  · simpa using member

/-- The status of a table with rows is posted last. -/
theorem postedRequests_of_ne_nil
    (browser : Browser) {table : Table} (rows : table ≠ []) :
    postedRequests browser table =
      table.filterMap (rowRequest browser) ++
        [.status (tableStatus table)] := by
  rw [postedRequests_eq, statusRequests, if_neg (by simpa using rows)]

/-- After the post of a table with rows, the kit has the status of the
table. -/
theorem status_syncKit
    (server : Server) (browser : Browser) (db : Db) {orderId kitId : Int}
    {table : Table} (rows : table ≠ []) {kit : KitRow}
    (member :
      kit ∈
        ((syncKit orderId kitId (postedRequests browser table)).exec
          (perform server) db).kits)
    (named : kit.key = (orderId, kitId)) :
    kit.status = tableStatus table := by
  rw [exec_syncKit, postedRequests_of_ne_nil browser rows,
    runActions_append] at member
  obtain ⟨source, _, rewritten⟩ := Relational.mem_updateWhere.mp member
  by_cases selected : source.orderId = orderId ∧ source.id = kitId
  · rw [if_pos selected] at rewritten
    rw [← rewritten]
  · rw [if_neg selected] at rewritten
    rw [← rewritten] at named
    exact
      absurd ⟨congrArg Prod.fst named, congrArg Prod.snd named⟩ selected

/-- A kit that the page of its order marks as done is stored with that
status. -/
theorem stored_of_doneMarks
    {server : Server} {db : Db} {order : OrderRow} {kitId : Int}
    (marked :
      (kitId, true) ∈
        doneMarks ((pageOrder order).eval (perform server) db)) :
    ∃ kit ∈ db.kits, kit.key = (order.id, kitId) ∧ kit.status = 2 := by
  have listed :
      (pageOrder order).eval (perform server) db =
        .order order.id (db.listKits order.id) := rfl
  rw [listed] at marked
  obtain ⟨entry, entryMember, isMark⟩ := List.mem_map.mp marked
  obtain ⟨kit, kitMember, rfl⟩ := List.mem_map.mp entryMember
  have sorted :=
    (List.perm_insertionSort _ _).mem_iff.mp kitMember
  obtain ⟨member, inOrder⟩ := List.mem_filter.mp sorted
  have isOrder : kit.orderId = order.id := by simpa using inOrder
  have isNumber : kit.id = kitId := congrArg Prod.fst isMark
  have isTwo : (kit.status == 2) = true := congrArg Prod.snd isMark
  refine ⟨kit, member, ?_, by simpa using isTwo⟩
  rw [KitRow.key, isOrder, isNumber]

/-- A kit is reported as done only if it is complete exactly if all rows of
its table are final, or none is and none was at an earlier tick. -/
theorem doneOnlyIfComplete_iff
    (server : Server) (browser : Browser) (db : Db) (order : OrderRow)
    (kitId : Int) (earlier : List Table) (table : Table) :
    DoneOnlyIfComplete server browser db order kitId earlier table ↔
      (∀ ticked ∈ earlier ++ [table], ∀ row ∈ ticked, isFinal row = false) ∨
        ∀ row ∈ table, isFinal row = true := by
  constructor
  · intro only
    by_cases shown : panelShown (earlier ++ [table]) = true
    · exact Or.inr (only.panel shown)
    · left
      intro ticked member row rowMember
      rw [panelShown_iff] at shown
      rw [← Bool.not_eq_true]
      exact fun final => shown ⟨ticked, member, row, rowMember, final⟩
  · intro condition
    have complete :
        (∃ ticked ∈ earlier ++ [table], ∃ row ∈ ticked, isFinal row = true) →
          Complete table := by
      rintro ⟨ticked, member, row, rowMember, final⟩
      rcases condition with noneFinal | allFinal
      · rw [noneFinal ticked member row rowMember] at final
        cases final
      · exact allFinal
    have ofStatus : tableStatus table = 2 → Complete table := by
      intro isTwo
      obtain ⟨row, rowMember, final⟩ :=
        List.any_eq_true.mp ((tableStatus_eq_two_iff table).mp isTwo)
      exact
        complete
          ⟨table, List.mem_append_right _ (List.mem_singleton_self _), row,
            rowMember, final⟩
    have stored :
        ∀ kit ∈
            ((syncKit order.id kitId (postedRequests browser table)).exec
              (perform server) db).kits,
          kit.key = (order.id, kitId) → kit.status = 2 →
            Complete table := by
      intro kit member named isTwo
      by_cases rows : table = []
      · subst rows
        intro row impossible
        cases impossible
      · apply ofStatus
        rw [← isTwo]
        exact (status_syncKit server browser db rows member named).symm
    refine ⟨?_, stored, ?_, ?_⟩
    · intro posted
      rw [postedRequests_eq] at posted
      rcases List.mem_append.mp posted with ofRow | ofTable
      · obtain ⟨row, _, decoded⟩ := List.mem_filterMap.mp ofRow
        exact absurd decoded (rowRequest_ne_status browser row 2)
      · apply ofStatus
        exact (status_of_mem_statusRequests ofTable).symm
    · intro marked
      obtain ⟨kit, member, named, isTwo⟩ := stored_of_doneMarks marked
      exact stored kit member named isTwo
    · intro shown
      exact complete ((panelShown_iff _).mp shown)

/-- A kit of which one group is labelled and archived and the other one has
nothing yet. -/
def halfDone : Db :=
  { Db.bolts with
    groups :=
      [{ orderId := 1, kitId := 0, id := 0, count := 5, target := 5,
         classId := 1, tagId := some (bytes "t1"), archived := true },
       { orderId := 1, kitId := 0, id := 1, count := 0, target := 5,
         classId := 1, tagId := none, archived := false }] }

/-- It is reported as done. -/
theorem halfDone_reported_done :
    (0, true) ∈
        doneMarks
          ((pageOrder ⟨1, 1⟩).eval (perform Server.plain)
            ((syncKit 1 0
                (postedRequests Browser.exact
                  ((halfDone.kitGoals 1 0).map newTr))).exec
              (perform Server.plain) halfDone)) ∧
      ¬ DoneOnlyIfComplete Server.plain Browser.exact halfDone ⟨1, 1⟩ 0 []
        ((halfDone.kitGoals 1 0).map newTr) := by
  refine ⟨by decide, ?_⟩
  intro only
  have complete :
      ∀ row ∈ (halfDone.kitGoals 1 0).map newTr, isFinal row = true :=
    only.panel (by decide)
  revert complete
  decide

end LtlsKitting.Client
