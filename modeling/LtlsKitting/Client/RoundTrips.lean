import LtlsKitting.Client.Displacement
import LtlsKitting.Client.Doubles
import LtlsKitting.Client.Posting
import LtlsKitting.Sync.Refusals
import Mathlib.Logic.Function.Iterate

/-!
# Quiet round trips

While nobody else writes and nothing is typed, the page posts its table, the
server processes it, and the page handles the response.  After the first round
trip no input is below its count, so the second one only withdraws.  What it
refuses is therefore out of reach in the end, and the page overrides exactly
these inputs.
-/

namespace LtlsKitting.Client

open LtlsKitting.Php LtlsKitting.Store LtlsKitting.Sync
open LtlsKitting.Interaction LtlsKitting.Relational

/-- The store and the table after a post, its processing and its response. -/
def roundTrip
    (server : Server) (browser : Browser) (orderId kitId : Int)
    (state : Db × Table) : Db × Table :=
  let program := syncKit orderId kitId (postedRequests browser state.2)
  (program.exec (perform server) state.1,
    syncResult browser (program.eval (perform server) state.1) state.2)

/-- The integer at the start of the input. -/
def typedValue (row : Row) : Option Int :=
  (inputText row).bind parseInt

/-- The row requests of a table in which no label is requested. -/
def tableBatch (table : Table) : RowBatch :=
  table.filterMap (fun row =>
    (typedValue row).map (fun value => (row.id, value)))

/-- A row without a pending label request that shows an integer. -/
structure PlainRow (row : Row) : Prop where
  id : Safe row.id
  unrequested : labelRequested row = false
  typed :
    ∀ text, inputText row = some text →
      ∃ value, text = numeral value ∧ Safe value

/-! ## What is posted -/

section

variable {browser : Browser}

theorem typedValue_of_numeral {row : Row} {value : Int}
    (typed : inputText row = some (numeral value)) :
    typedValue row = some value := by
  simp only [typedValue, typed, Option.bind_some, parseInt_numeral]

theorem PlainRow.inputText_eq {row : Row} (plain : PlainRow row) :
    inputText row = (typedValue row).map numeral := by
  cases shown : inputText row with
  | none =>
      simp [typedValue, shown]
  | some text =>
      obtain ⟨value, isNumeral, _⟩ := plain.typed text shown
      rw [isNumeral] at shown ⊢
      rw [typedValue_of_numeral shown, Option.map_some]

theorem PlainRow.safe {row : Row} (plain : PlainRow row) {value : Int}
    (typed : typedValue row = some value) : Safe value := by
  have shown := plain.inputText_eq
  rw [typed] at shown
  obtain ⟨other, isNumeral, safe⟩ := plain.typed _ shown
  rw [numeral_injective isNumeral]
  exact safe

theorem PlainRow.rowRequest_eq {row : Row} (plain : PlainRow row) :
    rowRequest browser row =
      (typedValue row).map (fun value => .row row.id value false) := by
  cases shown : inputText row with
  | none =>
      rw [rowRequest_of_locked shown]
      simp [typedValue, shown]
  | some text =>
      obtain ⟨value, isNumeral, safe⟩ := plain.typed text shown
      rw [isNumeral] at shown
      rw [rowRequest_of_read shown (parseInt_numeral value) safe plain.id,
        typedValue_of_numeral shown, plain.unrequested]
      rfl

theorem filterMap_rowRequest {table : Table}
    (plain : ∀ row ∈ table, PlainRow row) :
    table.filterMap (rowRequest browser) = (tableBatch table).requests := by
  have each :
      ∀ row ∈ table,
        rowRequest browser row =
          ((typedValue row).map (fun value => (row.id, value))).map
            (fun wish => SyncRequest.row wish.1 wish.2 false) := by
    intro row member
    rw [(plain row member).rowRequest_eq, Option.map_map]
    rfl
  rw [tableBatch, RowBatch.requests, List.map_filterMap]
  exact List.filterMap_congr each

end

/-- A round trip processes the batch of the table; besides, it stores the
status of the kit. -/
theorem roundTrip_eq
    (server : Server) (browser : Browser) (orderId kitId : Int) (db : Db)
    {table : Table} (plain : ∀ row ∈ table, PlainRow row) :
    ∃ kits,
      roundTrip server browser orderId kitId (db, table) =
        ({ runBatch db orderId kitId (tableBatch table) with kits := kits },
          syncResult browser
            ((runBatch db orderId kitId (tableBatch table)).kitGoals orderId
              kitId)
            table) := by
  have requests := @postedRequests_eq browser table
  rw [filterMap_rowRequest plain] at requests
  have stored :
      ∃ kits,
        (requestsLoop orderId kitId (postedRequests browser table)).exec
            (perform server) db =
          { runBatch db orderId kitId (tableBatch table) with kits := kits } := by
    rw [exec_requestsLoop, requests, runActions_append]
    change
      ∃ kits,
        runActions (fun current request =>
            applyRequest current orderId kitId request)
            (runBatch db orderId kitId (tableBatch table))
            (statusRequests table) =
          _
    simp only [statusRequests]
    split
    · exact ⟨_, rfl⟩
    · exact ⟨_, rfl⟩
  obtain ⟨kits, stored⟩ := stored
  refine ⟨kits, ?_⟩
  simp only [roundTrip, syncKit]
  rw [Program.exec_bind, Program.eval_bind, stored]
  rfl

/-! ## Rows and groups -/

section

variable {orderId kitId : Int}

theorem mem_kitGoals {db : Db} {goal : Goal} :
    goal ∈ db.kitGoals orderId kitId ↔
      ∃ group ∈ db.groups,
        group.key = ⟨orderId, kitId, goal.id⟩ ∧ db.goal group = goal := by
  simp only [Db.kitGoals, List.mem_insertionSort, List.mem_map,
    List.mem_filter, decide_eq_true_eq]
  constructor
  · rintro ⟨group, ⟨member, sameKit⟩, rfl⟩
    refine ⟨group, member, ?_, rfl⟩
    simp [GroupRow.key, sameKit, Db.goal]
  · rintro ⟨group, member, sameKey, isGoal⟩
    simp only [GroupRow.key, GroupKey.mk.injEq] at sameKey
    exact ⟨group, ⟨member, sameKey.1, sameKey.2.1⟩, isGoal⟩

theorem kitGoals_ids (db : Db) :
    (db.kitGoals orderId kitId).map Goal.id =
      (((db.groups.map GroupRow.fixed).filter
          (fun columns =>
            columns.1.orderId = orderId ∧ columns.1.kitId = kitId)).map
        (fun columns => columns.1.id)).insertionSort (· ≤ ·) := by
  simp only [Db.kitGoals]
  rw [List.map_insertionSort _ (· ≤ ·) Goal.id _ (fun _ _ _ _ => Iff.rfl),
    List.map_map, List.filter_map, List.map_map]
  rfl

/-- The ids of the rows of a kit depend on the fixed columns only. -/
theorem kitGoals_ids_of_fixed {first second : Db}
    (same :
      first.groups.map GroupRow.fixed = second.groups.map GroupRow.fixed) :
    (first.kitGoals orderId kitId).map Goal.id =
      (second.kitGoals orderId kitId).map Goal.id := by
  rw [kitGoals_ids, kitGoals_ids, same]

theorem kitGoals_ids_nodup {db : Db} (identified : db.GroupsIdentified) :
    ((db.kitGoals orderId kitId).map Goal.id).Nodup := by
  have all : ((db.groups.map GroupRow.fixed).map Prod.fst).Nodup := by
    rw [List.map_map]
    exact identified
  have keys := all.sublist
    (List.Sublist.map Prod.fst
      (@List.filter_sublist _
        (fun columns : GroupKey × Int × Int × Bool =>
          decide (columns.1.orderId = orderId ∧ columns.1.kitId = kitId))
        (db.groups.map GroupRow.fixed)))
  rw [kitGoals_ids, (List.perm_insertionSort _ _).nodup_iff]
  apply List.Nodup.of_map (fun id => (⟨orderId, kitId, id⟩ : GroupKey))
  rw [List.map_map]
  refine Eq.subst (List.map_congr_left ?_) keys
  intro columns member
  have sameKit := (List.mem_filter.mp member).2
  simp only [decide_eq_true_eq] at sameKit
  simp only [Function.comp_apply]
  rw [← sameKit.1, ← sameKit.2]

theorem tableBatch_cons (row : Row) (rows : Table) :
    tableBatch (row :: rows) =
      match typedValue row with
      | some value => (row.id, value) :: tableBatch rows
      | none => tableBatch rows := by
  simp only [tableBatch, List.filterMap_cons]
  cases typedValue row with
  | none => rfl
  | some value => rfl

theorem tableBatch_ids_sublist (table : Table) :
    ((tableBatch table).map Prod.fst).Sublist (table.map Row.id) := by
  induction table with
  | nil =>
      exact List.Sublist.refl _
  | cons row rows inductionHypothesis =>
      rw [tableBatch_cons, List.map_cons]
      cases typedValue row with
      | none => exact inductionHypothesis.cons _
      | some value => exact inductionHypothesis.cons_cons _

theorem mem_tableBatch {table : Table} {wish : Int × Int} :
    wish ∈ tableBatch table ↔
      ∃ row ∈ table, row.id = wish.1 ∧ typedValue row = some wish.2 := by
  obtain ⟨id, value⟩ := wish
  simp only [tableBatch, List.mem_filterMap, Option.map_eq_some_iff]
  constructor
  · rintro ⟨row, member, typed, shown, same⟩
    cases same
    exact ⟨row, member, rfl, shown⟩
  · rintro ⟨row, member, sameId, shown⟩
    exact ⟨row, member, value, shown, by rw [sameId]⟩

theorem lookup_tableBatch {table : Table}
    (different : (table.map Row.id).Nodup) {row : Row} (member : row ∈ table) :
    (tableBatch table).lookup row.id = typedValue row := by
  induction table with
  | nil =>
      cases member
  | cons first rows inductionHypothesis =>
      obtain ⟨fresh, rowsDifferent⟩ := List.nodup_cons.mp different
      have missing : first.id ∉ (tableBatch rows).map Prod.fst :=
        fun later => fresh ((tableBatch_ids_sublist rows).subset later)
      rw [tableBatch_cons]
      rcases List.mem_cons.mp member with isFirst | later
      · rw [isFirst]
        cases typedValue first with
        | none => exact lookup_eq_none missing
        | some value =>
            exact
              @lookup_cons_of_eq first.id (first.id, value) rfl
                (tableBatch rows)
      · have apart : row.id ≠ first.id := by
          intro same
          exact fresh (List.mem_map.mpr ⟨row, later, same⟩)
        have found := inductionHypothesis rowsDifferent later
        cases typedValue first with
        | none => exact found
        | some value => exact (lookup_cons_of_ne apart _).trans found

theorem batchValue_of_row {table : Table}
    (different : (table.map Row.id).Nodup) {row : Row} (member : row ∈ table)
    {group : GroupRow} (addressed : group.key = ⟨orderId, kitId, row.id⟩) :
    batchValue orderId kitId (tableBatch table) group = typedValue row := by
  simp only [GroupRow.key, GroupKey.mk.injEq] at addressed
  simp only [batchValue, addressed, and_self, if_true]
  exact lookup_tableBatch different member

theorem row_of_batchValue {table : Table}
    {group : GroupRow} {value : Int}
    (wanted :
      batchValue orderId kitId (tableBatch table) group = some value) :
    ∃ row ∈ table,
      group.key = ⟨orderId, kitId, row.id⟩ ∧ typedValue row = some value := by
  simp only [batchValue] at wanted
  split at wanted
  next sameKit =>
    obtain ⟨row, member, sameId, shown⟩ :=
      mem_tableBatch.mp (mem_of_lookup wanted)
    refine ⟨row, member, ?_, shown⟩
    simp [GroupRow.key, sameKit, sameId]
  next =>
    cases wanted

end

/-! ## What the page makes of the response -/

section

variable {browser : Browser}

/-- If the ids are those of the response, every goal is written into the row
in its place. -/
theorem syncResult_of_ids {table : Table} {data : List Goal}
    (ids : table.map Row.id = data.map Goal.id) :
    syncResult browser data table =
      List.zipWith (settleTr browser) data table := by
  have same : SameIds table data := by
    apply sameIds_of_getElem?
    intro i row goal present goalPresent
    have atPlace := congrArg (fun ids => ids[i]?) ids
    simpa [present, goalPresent, eq_comm] using atPlace
  have sameLength : table.length = data.length := by
    simpa using congrArg List.length ids
  rw [syncResult_of_sameIds same, arrange_eq_zipWith sameLength]

/-- A row of the result, its goal, and the row that stood in its place. -/
theorem mem_settled {table : Table} {data : List Goal}
    (ids : table.map Row.id = data.map Goal.id) {settled : Row}
    (member : settled ∈ List.zipWith (settleTr browser) data table) :
    ∃ goal ∈ data, ∃ row ∈ table,
      goal.id = row.id ∧ settled = settleTr browser goal row := by
  induction table generalizing data with
  | nil =>
      simp at member
  | cons row rows inductionHypothesis =>
      cases data with
      | nil =>
          simp at member
      | cons goal goals =>
          simp only [List.map_cons, List.cons.injEq] at ids
          rw [List.zipWith_cons_cons] at member
          rcases List.mem_cons.mp member with isFirst | later
          · exact
              ⟨goal, List.mem_cons_self .., row, List.mem_cons_self ..,
                ids.1.symm, isFirst⟩
          · obtain ⟨other, otherMember, stood, stoodMember, sameId, isOther⟩ :=
              inductionHypothesis ids.2 later
            exact
              ⟨other, List.mem_cons_of_mem _ otherMember, stood,
                List.mem_cons_of_mem _ stoodMember, sameId, isOther⟩

theorem settled_ids {table : Table} {data : List Goal}
    (ids : table.map Row.id = data.map Goal.id) :
    (List.zipWith (settleTr browser) data table).map Row.id =
      data.map Goal.id := by
  induction table generalizing data with
  | nil =>
      cases data with
      | nil => rfl
      | cons goal goals => simp at ids
  | cons row rows inductionHypothesis =>
      cases data with
      | nil =>
          rfl
      | cons goal goals =>
          simp only [List.map_cons, List.cons.injEq] at ids
          rw [List.zipWith_cons_cons, List.map_cons, List.map_cons,
            inductionHypothesis ids.2, settleTr_id ids.1.symm]

/-- The input of a row after a response, for an inventory that the page
compares correctly. -/
theorem inputText_settled
    {goal : Goal} {row : Row} {text : Text} {inventory : Int}
    (plain : PlainRow row) (safeCount : Safe goal.count)
    (stocked : goal.inventory = some inventory)
    (compared :
      ∀ value, typedValue row = some value →
        browser.exceeds value goal.count inventory =
          decide (inventory < value - goal.count))
    (shown : inputText (settleTr browser goal row) = some text) :
    text = numeral goal.count ∨
      ∃ value,
        typedValue row = some value ∧ text = numeral value ∧
          value - goal.count ≤ inventory := by
  by_cases passes : goalTag goal = none ∧ (inputText row).isSome
  · obtain ⟨previous, typed⟩ := Option.isSome_iff_exists.mp passes.2
    obtain ⟨value, isNumeral, _⟩ := plain.typed previous typed
    rw [isNumeral] at typed
    have read := typedValue_of_numeral typed
    have written := (@settleTr_of_open browser goal row _ passes.1 typed).2
    rw [shown, Option.some.injEq, overrideInput_eq] at written
    split at written
    next counted =>
      left
      rw [written, counted]
    next =>
      split at written
      next =>
        left
        rw [written, browser.shown_safe goal.count safeCount]
      next reachable =>
        right
        refine ⟨value, read, written, ?_⟩
        simp only [overrides, parseInt_numeral, stocked,
          compared value read, decide_eq_true_eq] at reachable
        omega
  · left
    rw [settleTr_of_closed passes] at shown
    by_cases tagged : goalTag goal = none
    · simpa [newTr, newCells, tagged, inputText] using shown.symm
    · obtain ⟨tag, isTag⟩ := Option.ne_none_iff_exists'.mp tagged
      simp [newTr, newCells, isTag, inputText] at shown

theorem settleTr_of_counted
    {goal : Goal} {row : Row} {requested : Bool}
    (untagged : goalTag goal = none) (shows : Shows goal row)
    (cells :
      row.cells =
        .unlocked (numeral goal.count)
          (numeral goal.count != numeral goal.target) requested) :
    settleTr browser goal row = row := by
  have kept :
      overrideInput browser goal (numeral goal.count) =
        numeral goal.count := by
    rw [overrideInput_eq, if_pos rfl]
  simp only [settleTr, untagged, cells, updateTr, kept, ← shows.description,
    ← shows.pn, ← shows.sn, ← shows.weight, ← shows.inventory, ← shows.target,
    ← shows.location]
  rw [← shows.target] at cells
  rw [← cells]

/-- A row that shows the count is left as it is by the same goal. -/
theorem settleTr_settleTr
    {goal : Goal} {row : Row}
    (counted :
      ∀ text, inputText (settleTr browser goal row) = some text →
        text = numeral goal.count) :
    settleTr browser goal (settleTr browser goal row) =
      settleTr browser goal row := by
  by_cases untagged : goalTag goal = none
  · by_cases unlocked : (inputText row).isSome
    · obtain ⟨previous, typed⟩ := Option.isSome_iff_exists.mp unlocked
      cases cells : row.cells with
      | locked count tag archived =>
          simp [inputText, cells] at typed
      | unlocked value disabled requested =>
          have settled :
              (settleTr browser goal row).cells =
                .unlocked (overrideInput browser goal value)
                  (overrideInput browser goal value != numeral goal.target)
                  requested := by
            simp only [settleTr, untagged, cells, updateTr]
          have same := counted _ (by rw [inputText, settled])
          rw [same] at settled
          exact
            settleTr_of_counted untagged (shows_settleTr goal row) settled
    · rw [settleTr_of_closed (fun passes => unlocked passes.2)]
      have numerals :
          (goal.count != goal.target) =
            (numeral goal.count != numeral goal.target) := by
        rw [Bool.eq_iff_iff, bne_iff_ne, bne_iff_ne, not_iff_not]
        exact ⟨fun same => by rw [same], numeral_injective⟩
      have cells :
          (newTr goal).cells =
            .unlocked (numeral goal.count)
              (numeral goal.count != numeral goal.target) false := by
        simp only [newTr, newCells, untagged, numerals]
      exact settleTr_of_counted untagged (shows_newTr goal) cells
  · rw [settleTr_of_closed (fun passes => untagged passes.1),
      settleTr_of_closed (fun passes => untagged passes.1)]

/-- A table whose rows show the counts is left as it is by the same
response. -/
theorem settled_settled {table : Table} {data : List Goal}
    (counted :
      ∀ goal ∈ data, ∀ row ∈ table, goal.id = row.id → ∀ text,
        inputText (settleTr browser goal row) = some text →
          text = numeral goal.count)
    (ids : table.map Row.id = data.map Goal.id) :
    List.zipWith (settleTr browser) data
        (List.zipWith (settleTr browser) data table) =
      List.zipWith (settleTr browser) data table := by
  induction table generalizing data with
  | nil =>
      simp
  | cons row rows inductionHypothesis =>
      cases data with
      | nil =>
          rfl
      | cons goal goals =>
          simp only [List.map_cons, List.cons.injEq] at ids
          have first :=
            counted goal (List.mem_cons_self ..) row (List.mem_cons_self ..)
              ids.1.symm
          have later :
              ∀ other ∈ goals, ∀ stood ∈ rows, other.id = stood.id → ∀ text,
                inputText (settleTr browser other stood) = some text →
                  text = numeral other.count := by
            intro other otherMember stood stoodMember
            exact
              counted other (List.mem_cons_of_mem _ otherMember) stood
                (List.mem_cons_of_mem _ stoodMember)
          rw [List.zipWith_cons_cons, List.zipWith_cons_cons,
            settleTr_settleTr first, inductionHypothesis later ids.2]

end

/-! ## One round trip -/

/-- A kit and its table while nothing is typed and no label is requested.  The
table has the rows of the kit, and the numbers that the page computes with are
exact. -/
structure QuietKit
    (orderId kitId : Int) (db : Db) (table : Table) : Prop where
  nonneg : db.NonnegInventories
  identified : db.GroupsIdentified
  known : ClassesKnown db
  ids : table.map Row.id = (db.kitGoals orderId kitId).map Goal.id
  rows : ∀ row ∈ table, PlainRow row
  exact :
    ∀ row ∈ table, ∀ group ∈ db.groups,
      group.key = ⟨orderId, kitId, row.id⟩ →
        Safe group.count ∧
          ∀ value, typedValue row = some value → Safe (value - group.count)

/-- The store that a table leaves, up to the status of the kit. -/
def tableStore (orderId kitId : Int) (db : Db) (table : Table) : Db :=
  runBatch db orderId kitId (tableBatch table)

/-- The table that the page then shows. -/
def tableShown
    (browser : Browser) (orderId kitId : Int) (db : Db) (table : Table) :
    Table :=
  List.zipWith (settleTr browser)
    ((tableStore orderId kitId db table).kitGoals orderId kitId) table

/-- A row of the table after a round trip: the row that stood in its place and
its group before and after. -/
structure TripRow
    (browser : Browser) (orderId kitId : Int) (db : Db) (table : Table)
    (settled row : Row) (source group : GroupRow) : Prop where
  stood : row ∈ table
  before : source ∈ db.groups
  after : group ∈ (tableStore orderId kitId db table).groups
  sourceKey : source.key = ⟨orderId, kitId, row.id⟩
  groupKey : group.key = ⟨orderId, kitId, row.id⟩
  outcome :
    GroupOutcome db orderId kitId (tableBatch table)
      (tableStore orderId kitId db table) source group
  wish : batchValue orderId kitId (tableBatch table) source = typedValue row
  written :
    settled =
      settleTr browser ((tableStore orderId kitId db table).goal group) row
  sameId : settled.id = row.id

section

variable {browser : Browser} {orderId kitId : Int} {db : Db} {table : Table}

theorem QuietKit.different (quiet : QuietKit orderId kitId db table) :
    (table.map Row.id).Nodup := by
  rw [quiet.ids]
  exact kitGoals_ids_nodup quiet.identified

theorem QuietKit.outcome (quiet : QuietKit orderId kitId db table) :
    BatchOutcome db orderId kitId (tableBatch table)
        (tableStore orderId kitId db table) ∧
      StoreKept db (tableStore orderId kitId db table) :=
  runBatch_outcome orderId kitId quiet.nonneg quiet.identified quiet.known
    (quiet.different.sublist (tableBatch_ids_sublist table))

theorem QuietKit.idsAfter (quiet : QuietKit orderId kitId db table) :
    table.map Row.id =
      ((tableStore orderId kitId db table).kitGoals orderId kitId).map
        Goal.id := by
  rw [quiet.ids]
  exact kitGoals_ids_of_fixed quiet.outcome.2.fixed.symm

theorem QuietKit.tripRow (quiet : QuietKit orderId kitId db table)
    {goal : Goal} {row : Row}
    (wanted :
      goal ∈ (tableStore orderId kitId db table).kitGoals orderId kitId)
    (stood : row ∈ table) (sameId : goal.id = row.id) :
    ∃ source group,
      TripRow browser orderId kitId db table (settleTr browser goal row) row
          source group ∧
        (tableStore orderId kitId db table).goal group = goal := by
  obtain ⟨group, after, groupKey, isGoal⟩ := mem_kitGoals.mp wanted
  obtain ⟨source, before, outcome⟩ := quiet.outcome.1.groups group after
  have sameKey : source.key = group.key := by
    cases asked : batchValue orderId kitId (tableBatch table) source with
    | none =>
        rw [outcome.unasked asked]
    | some value =>
        rcases outcome.asked value asked with taken | refused
        · rw [taken]
          rfl
        · rw [refused.1]
  rw [sameId] at groupKey
  have sourceKey := sameKey.trans groupKey
  refine
    ⟨source, group,
      ⟨stood, before, after, sourceKey, groupKey, outcome,
        batchValue_of_row quiet.different stood sourceKey, ?_, ?_⟩, isGoal⟩
  · rw [isGoal]
  · rw [settleTr_id sameId, sameId]

theorem QuietKit.tripRow_of_mem (quiet : QuietKit orderId kitId db table)
    {settled : Row}
    (member : settled ∈ tableShown browser orderId kitId db table) :
    ∃ row source group,
      TripRow browser orderId kitId db table settled row source group := by
  obtain ⟨goal, wanted, row, stood, sameId, isSettled⟩ :=
    mem_settled quiet.idsAfter member
  obtain ⟨source, group, trip, _⟩ :=
    @QuietKit.tripRow browser _ _ _ _ quiet goal row wanted stood sameId
  rw [isSettled]
  exact ⟨row, source, group, trip⟩

/-- The count after the round trip is exact, and so is its difference to what
was typed. -/
theorem TripRow.safe
    {settled row : Row} {source group : GroupRow}
    (trip : TripRow browser orderId kitId db table settled row source group)
    (quiet : QuietKit orderId kitId db table) :
    Safe group.count ∧
      ∀ value, typedValue row = some value → Safe (value - group.count) := by
  have exactBefore :=
    quiet.exact row trip.stood source trip.before trip.sourceKey
  cases typed : typedValue row with
  | none =>
      rw [trip.outcome.unasked (trip.wish.trans typed)]
      exact ⟨exactBefore.1, fun _ isValue => by cases isValue⟩
  | some value =>
      rw [typed] at exactBefore
      rcases trip.outcome.asked value (trip.wish.trans typed) with
        taken | refused
      · have safeValue := (quiet.rows row trip.stood).safe typed
        rw [taken]
        refine ⟨safeValue, ?_⟩
        intro other isValue
        have same : other - value = 0 := by
          rw [← Option.some.inj isValue, Int.sub_self]
        change Safe (other - value)
        rw [same]
        exact ⟨by decide, by decide⟩
      · rw [refused.1]
        exact exactBefore

/-- The input after the round trip shows the count, or still shows what was
typed, which is then within reach. -/
theorem TripRow.input
    {settled row : Row} {source group : GroupRow}
    (trip : TripRow browser orderId kitId db table settled row source group)
    (quiet : QuietKit orderId kitId db table) {text : Text}
    (shown : inputText settled = some text) :
    text = numeral group.count ∨
      ∃ value,
        typedValue row = some value ∧ text = numeral value ∧
          value - group.count ≤
            (tableStore orderId kitId db table).inventory group.classId := by
  have kept := quiet.outcome.2
  obtain ⟨classRow, classMember, sameClass⟩ := kept.known group trip.after
  have found :
      (tableStore orderId kitId db table).classes.lookup group.classId =
        some classRow := by
    rw [← sameClass]
    exact SerialTable.lookup_eq_some classMember
  have stock := Db.inventory_eq classMember
  have stocked :
      ((tableStore orderId kitId db table).goal group).inventory =
        some
          ((tableStore orderId kitId db table).inventory group.classId) := by
    rw [← sameClass, stock]
    simp only [Db.goal, found, Option.map_some]
  have safe := trip.safe quiet
  have plain := quiet.rows row trip.stood
  rw [trip.written] at shown
  refine inputText_settled plain safe.1 stocked ?_ shown
  intro value typed
  apply
    browser.exceeds_stock (plain.safe typed) safe.1 (safe.2 value typed)
  rw [← sameClass, stock]
  exact kept.nonneg classRow classMember

theorem labelRequested_settleTr {goal : Goal} {row : Row}
    (unrequested : labelRequested row = false) :
    labelRequested (settleTr browser goal row) = false := by
  have ofNew : labelRequested (newTr goal) = false := by
    cases tagged : goalTag goal with
    | none => simp [labelRequested, newTr, newCells, tagged]
    | some tag => simp [labelRequested, newTr, newCells, tagged]
  simp only [settleTr]
  split
  next value disabled requested _ cells =>
    simpa [labelRequested, cells, updateTr] using unrequested
  next =>
    exact ofNew

/-- The kit stays quiet. -/
theorem QuietKit.next (quiet : QuietKit orderId kitId db table) :
    QuietKit orderId kitId (tableStore orderId kitId db table)
      (tableShown browser orderId kitId db table) := by
  have kept := quiet.outcome.2
  have shownIds := @settled_ids browser _ _ quiet.idsAfter
  refine ⟨kept.nonneg, kept.identified, kept.known, shownIds, ?_, ?_⟩
  · intro settled member
    obtain ⟨row, source, group, trip⟩ := quiet.tripRow_of_mem member
    have plain := quiet.rows row trip.stood
    refine ⟨?_, ?_, ?_⟩
    · rw [trip.sameId]
      exact plain.id
    · rw [trip.written]
      exact labelRequested_settleTr plain.unrequested
    · intro text shown
      rcases trip.input quiet shown with counted | typed
      · exact ⟨group.count, counted, (trip.safe quiet).1⟩
      · obtain ⟨value, typed, isNumeral, _⟩ := typed
        exact ⟨value, isNumeral, plain.safe typed⟩
  · intro settled member other otherMember addressed
    obtain ⟨row, source, group, trip⟩ := quiet.tripRow_of_mem member
    rw [trip.sameId, ← trip.groupKey] at addressed
    rw [kept.identified.eq_of_key_eq otherMember trip.after addressed]
    have safe := trip.safe quiet
    refine ⟨safe.1, ?_⟩
    intro value read
    obtain ⟨text, shown, parsed⟩ := Option.bind_eq_some_iff.mp read
    rcases trip.input quiet shown with counted | typed
    · rw [counted, parseInt_numeral, Option.some.injEq] at parsed
      rw [← parsed, Int.sub_self]
      exact ⟨by decide, by decide⟩
    · obtain ⟨asked, typed, isNumeral, _⟩ := typed
      rw [isNumeral, parseInt_numeral, Option.some.injEq] at parsed
      rw [← parsed]
      exact safe.2 asked typed

/-- No input is below the count of its group. -/
def NotBelow (orderId kitId : Int) (db : Db) (table : Table) : Prop :=
  ∀ row ∈ table, ∀ value, typedValue row = some value →
    ∀ group ∈ db.groups, group.key = ⟨orderId, kitId, row.id⟩ →
      group.count ≤ value

/-- Every input shows the count of its group. -/
def Agreed (orderId kitId : Int) (db : Db) (table : Table) : Prop :=
  ∀ row ∈ table, ∀ text, inputText row = some text →
    ∃ group ∈ db.groups,
      group.key = ⟨orderId, kitId, row.id⟩ ∧ text = numeral group.count

/-- After one round trip, no input is below its count. -/
theorem QuietKit.notBelow_next (quiet : QuietKit orderId kitId db table) :
    NotBelow orderId kitId (tableStore orderId kitId db table)
      (tableShown browser orderId kitId db table) := by
  intro settled member value read other otherMember addressed
  obtain ⟨row, source, group, trip⟩ := quiet.tripRow_of_mem member
  rw [trip.sameId, ← trip.groupKey] at addressed
  rw [quiet.outcome.2.identified.eq_of_key_eq otherMember trip.after addressed]
  obtain ⟨text, shown, parsed⟩ := Option.bind_eq_some_iff.mp read
  rcases trip.input quiet shown with counted | typed
  · rw [counted, parseInt_numeral, Option.some.injEq] at parsed
    omega
  · obtain ⟨asked, typed, isNumeral, _⟩ := typed
    rw [isNumeral, parseInt_numeral, Option.some.injEq] at parsed
    rw [← parsed]
    rcases trip.outcome.asked asked (trip.wish.trans typed) with
      taken | ⟨sameGroup, more, _⟩
    · rw [taken]
    · rw [sameGroup]
      omega

theorem NotBelow.rising (notBelow : NotBelow orderId kitId db table) :
    Rising db orderId kitId (tableBatch table) := by
  intro group member value wanted
  obtain ⟨row, rowMember, addressed, typed⟩ := row_of_batchValue wanted
  exact notBelow row rowMember value typed group member addressed

/-- If no input is below its count, the round trip leaves every input at its
count. -/
theorem TripRow.counted
    {settled row : Row} {source group : GroupRow}
    (trip : TripRow browser orderId kitId db table settled row source group)
    (quiet : QuietKit orderId kitId db table)
    (notBelow : NotBelow orderId kitId db table) {text : Text}
    (shown : inputText settled = some text) :
    text = numeral group.count := by
  rcases trip.input quiet shown with counted | typed
  · exact counted
  · obtain ⟨value, typed, isNumeral, reachable⟩ := typed
    rcases trip.outcome.asked value (trip.wish.trans typed) with
      taken | ⟨sameGroup, _, unreachable⟩
    · rw [isNumeral, taken]
    · have tooFew := unreachable notBelow.rising
      rw [sameGroup] at reachable
      omega

/-- The store and the table agree, and another response does not change the
table. -/
structure AtRest
    (browser : Browser) (orderId kitId : Int) (db : Db) (table : Table) :
    Prop where
  quiet : QuietKit orderId kitId db table
  agreed : Agreed orderId kitId db table
  shown : syncResult browser (db.kitGoals orderId kitId) table = table

/-- If no input is below its count, the store and the table agree after the
round trip. -/
theorem QuietKit.atRest_next (quiet : QuietKit orderId kitId db table)
    (notBelow : NotBelow orderId kitId db table) :
    AtRest browser orderId kitId (tableStore orderId kitId db table)
      (tableShown browser orderId kitId db table) := by
  have quietNext := @QuietKit.next browser _ _ _ _ quiet
  refine ⟨quietNext, ?_, ?_⟩
  · intro settled member text shown
    obtain ⟨row, source, group, trip⟩ := quiet.tripRow_of_mem member
    refine ⟨group, trip.after, ?_, trip.counted quiet notBelow shown⟩
    rw [trip.sameId]
    exact trip.groupKey
  · rw [syncResult_of_ids quietNext.ids]
    apply settled_settled _ quiet.idsAfter
    intro goal wanted row stood sameId text shown
    obtain ⟨source, group, trip, isGoal⟩ :=
      @QuietKit.tripRow browser _ _ _ _ quiet goal row wanted stood sameId
    have sameCount : group.count = goal.count :=
      congrArg Goal.count isGoal
    rw [← sameCount]
    exact trip.counted quiet notBelow shown

/-- If the store and the table agree, the batch of the table changes
nothing. -/
theorem AtRest.tableStore_eq
    (rest : AtRest browser orderId kitId db table) :
    tableStore orderId kitId db table = db := by
  apply runBatch_of_same rest.quiet.identified
    (rest.quiet.different.sublist (tableBatch_ids_sublist table))
  intro group member value wanted
  obtain ⟨row, rowMember, addressed, typed⟩ := row_of_batchValue wanted
  have shown := (rest.quiet.rows row rowMember).inputText_eq
  rw [typed, Option.map_some] at shown
  obtain ⟨other, otherMember, otherKey, isCount⟩ :=
    rest.agreed row rowMember _ shown
  have same : other = group :=
    rest.quiet.identified.eq_of_key_eq otherMember member
      (otherKey.trans addressed.symm)
  rw [← same]
  exact numeral_injective isCount

end

/-! ## Round trips one after the other -/

section

variable {server : Server} {browser : Browser} {orderId kitId : Int}
variable {db : Db} {table : Table}

theorem QuietKit.roundTrip_eq (quiet : QuietKit orderId kitId db table) :
    ∃ kits,
      roundTrip server browser orderId kitId (db, table) =
        ({ tableStore orderId kitId db table with kits := kits },
          tableShown browser orderId kitId db table) := by
  obtain ⟨kits, trip⟩ :=
    Client.roundTrip_eq server browser orderId kitId db quiet.rows
  refine ⟨kits, trip.trans ?_⟩
  rw [syncResult_of_ids]
  · rfl
  · exact quiet.idsAfter

/-- What the round trips read does not depend on the kits. -/
theorem AtRest.of_kits (rest : AtRest browser orderId kitId db table)
    (kits : List KitRow) :
    AtRest browser orderId kitId { db with kits := kits } table :=
  ⟨⟨rest.quiet.nonneg, rest.quiet.identified, rest.quiet.known,
      rest.quiet.ids, rest.quiet.rows, rest.quiet.exact⟩,
    rest.agreed, rest.shown⟩

/-- The store and the table agree after two round trips. -/
theorem QuietKit.atRest (quiet : QuietKit orderId kitId db table) :
    AtRest browser orderId kitId
      (roundTrip server browser orderId kitId
        (roundTrip server browser orderId kitId (db, table))).1
      (roundTrip server browser orderId kitId
        (roundTrip server browser orderId kitId (db, table))).2 := by
  obtain ⟨kits, first⟩ := @QuietKit.roundTrip_eq server browser _ _ _ _ quiet
  have next := @QuietKit.next browser _ _ _ _ quiet
  have quietAfter :
      QuietKit orderId kitId
        { tableStore orderId kitId db table with kits := kits }
        (tableShown browser orderId kitId db table) :=
    ⟨next.nonneg, next.identified, next.known, next.ids, next.rows,
      next.exact⟩
  obtain ⟨laterKits, second⟩ :=
    @QuietKit.roundTrip_eq server browser _ _ _ _ quietAfter
  rw [first, second]
  exact
    (quietAfter.atRest_next quiet.notBelow_next).of_kits
      laterKits

/-- Once the store and the table agree, a round trip changes neither the
table nor the groups nor the classes. -/
theorem AtRest.roundTrip
    (rest : AtRest browser orderId kitId db table) :
    ∃ kits,
      Client.roundTrip server browser orderId kitId (db, table) =
        ({ db with kits := kits }, table) := by
  obtain ⟨kits, trip⟩ :=
    Client.roundTrip_eq server browser orderId kitId db rest.quiet.rows
  have same := rest.tableStore_eq
  simp only [tableStore] at same
  rw [same, rest.shown] at trip
  exact ⟨kits, trip⟩

theorem AtRest.iterate
    (rest : AtRest browser orderId kitId db table) (trips : Nat) :
    ∃ kits,
      (Client.roundTrip server browser orderId kitId)^[trips] (db, table) =
        ({ db with kits := kits }, table) := by
  induction trips with
  | zero =>
      exact ⟨db.kits, rfl⟩
  | succ trips inductionHypothesis =>
      obtain ⟨kits, sofar⟩ := inductionHypothesis
      obtain ⟨laterKits, next⟩ :=
        @AtRest.roundTrip server browser _ _ _ _ (rest.of_kits kits)
      refine ⟨laterKits, ?_⟩
      rw [Function.iterate_succ_apply', sofar, next]

end

/-- For every kit whose table has the rows of the kit and shows exact
integers, two round trips bring every input to the count of its group, and
further ones change neither the table nor a count nor an inventory. -/
theorem quiet_roundTrips_agree
    (server : Server) (browser : Browser)
    (orderId kitId : Int) (db : Db) (table : Table)
    (quiet : QuietKit orderId kitId db table) :
    let settled := (roundTrip server browser orderId kitId)^[2] (db, table)
    Agreed orderId kitId settled.1 settled.2 ∧
      ∀ trips,
        let later := (roundTrip server browser orderId kitId)^[trips] settled
        later.2 = settled.2 ∧ later.1.groups = settled.1.groups ∧
          later.1.classes = settled.1.classes := by
  intro settled
  have rest : AtRest browser orderId kitId settled.1 settled.2 :=
    quiet.atRest
  refine ⟨rest.agreed, ?_⟩
  intro trips later
  obtain ⟨kits, isLater⟩ := @AtRest.iterate server browser _ _ _ _ rest trips
  have same : later = ({ settled.1 with kits := kits }, settled.2) := isLater
  rw [same]
  exact ⟨rfl, rfl, rfl⟩

/-- The rows of the two groups of bolts with typed texts. -/
def typedBolts (first second : Text) : Table :=
  [editRow first (newTr (boltGoal 0 0 10 none)),
    editRow second (newTr (boltGoal 1 0 10 none))]

theorem quietKit_bolts :
    QuietKit 1 0 Db.bolts (typedBolts "12".toList "7".toList) := by
  have small : ∀ value ∈ ([0, 1, 7, 12] : List Int), Safe value := by
    intro value member
    simp only [List.mem_cons, List.not_mem_nil, or_false] at member
    simp only [Safe]
    omega
  have groups :
      ∀ group ∈ Db.bolts.groups, group.count = 0 ∧ 1 = group.classId := by
    decide
  have values :
      ∀ row ∈ typedBolts "12".toList "7".toList,
        typedValue row = some 12 ∨ typedValue row = some 7 := by
    decide
  refine
    ⟨(by decide : ∀ row ∈ Db.bolts.classes.rows, 0 ≤ row.inventory),
      (by decide : (Db.bolts.groups.map GroupRow.key).Nodup), ?_, by decide,
      ?_, ?_⟩
  · intro group member
    exact ⟨_, List.mem_cons_self .., (groups group member).2⟩
  · intro row member
    simp only [typedBolts, List.mem_cons, List.not_mem_nil, or_false] at member
    rcases member with first | second
    · rw [first]
      refine ⟨small 0 (by simp), rfl, ?_⟩
      intro text shown
      exact ⟨12, (Option.some.inj shown).symm, small 12 (by simp)⟩
    · rw [second]
      refine ⟨small 1 (by simp), rfl, ?_⟩
      intro text shown
      exact ⟨7, (Option.some.inj shown).symm, small 7 (by simp)⟩
  · intro row member group groupMember _
    rw [(groups group groupMember).1]
    refine ⟨small 0 (by simp), ?_⟩
    intro value typed
    rw [Int.sub_zero]
    rcases values row member with twelve | seven
    · rw [twelve] at typed
      rw [← Option.some.inj typed]
      exact small 12 (by simp)
    · rw [seven] at typed
      rw [← Option.some.inj typed]
      exact small 7 (by simp)

/-- The first group asks for more than there is, the second one for less. -/
theorem quiet_roundTrips_agree_bolts :
    let settled :=
      (roundTrip Server.plain Browser.double 1 0)^[2]
        (Db.bolts, typedBolts "12".toList "7".toList)
    Agreed 1 0 settled.1 settled.2 ∧
      ∀ trips,
        let later :=
          (roundTrip Server.plain Browser.double 1 0)^[trips] settled
        later.2 = settled.2 ∧ later.1.groups = settled.1.groups ∧
          later.1.classes = settled.1.classes :=
  quiet_roundTrips_agree Server.plain Browser.double 1 0 Db.bolts
    (typedBolts "12".toList "7".toList) quietKit_bolts

/-- An integer that the page rounds is accepted as another one, and the input
never shows the count. -/
theorem rounded_input_disagrees :
    numeral (-9007199254740993) = "-9007199254740993".toList ∧
      (typedBolts "-9007199254740993".toList "0".toList).map Row.id =
        (Db.bolts.kitGoals 1 0).map Goal.id ∧
      let settled :=
        (roundTrip Server.plain Browser.double 1 0)^[2]
          (Db.bolts, typedBolts "-9007199254740993".toList "0".toList)
      ¬ Agreed 1 0 settled.1 settled.2 := by
  refine ⟨by decide, by decide, ?_⟩
  intro settled agreed
  have rows :
      settled.2.map (fun row => (row.id, inputText row)) =
        [(0, some "-9007199254740993".toList), (1, some "0".toList)] := by
    decide
  have groups :
      ∀ group ∈ settled.1.groups,
        group.key = ⟨1, 0, 0⟩ → group.count = -9007199254740992 := by
    decide
  obtain ⟨row, member, shown⟩ :
      ∃ row ∈ settled.2,
        (row.id, inputText row) = (0, some "-9007199254740993".toList) := by
    apply List.mem_map.mp
    rw [rows]
    exact List.mem_cons_self ..
  obtain ⟨sameId, typed⟩ := Prod.mk.inj shown
  obtain ⟨group, groupMember, addressed, isCount⟩ :=
    agreed row member _ typed
  rw [sameId] at addressed
  rw [groups group groupMember addressed] at isCount
  exact absurd isCount (by decide)

end LtlsKitting.Client
