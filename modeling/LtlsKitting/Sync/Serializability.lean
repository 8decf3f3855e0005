import LtlsKitting.Sync.Accounting
import LtlsKitting.Sync.Points

/-!
# Synchronisations of different groups are serializable

If the requests of all pages address pairwise different groups and ask for no
tag, an interleaving ends in the store that results from processing whole
requests one after the other, in the order in which their take statements ran.

The proof follows the interleaving together with the serial execution.  The
serial store is ahead by the count updates that are still pending: it agrees
with the interleaved store everywhere else, and a group with a pending update
already holds the pending value.  A take statement does not read the count of
a group with a pending update, because that group belongs to another request.
-/

namespace LtlsKitting.Sync

open LtlsKitting.Php LtlsKitting.Store LtlsKitting.Relational
open LtlsKitting.Interaction

variable {ι : Type}

/-- The groups that the row requests of a list address. -/
def requestKeys (batch : Batch) (requests : List SyncRequest) :
    List GroupKey :=
  requests.filterMap (SyncRequest.key? batch.orderId batch.kitId)

/-- The request belongs to one row and asks for no tag. -/
def UntaggedRow (request : SyncRequest) : Prop :=
  ∃ id value, request = .row id value false

namespace SyncPoint

/-- The groups whose requests are not completed at a point. -/
def openKeys (batch : Batch) : SyncPoint → List GroupKey
  | loop requests => requestKeys batch requests
  | counting id _ _ rest => batch.key id :: requestKeys batch rest
  | tagging _ rest => requestKeys batch rest
  | claiming _ _ rest => requestKeys batch rest
  | answered _ => []

/-- The count update that is pending at a point. -/
def pending? (batch : Batch) : SyncPoint → Option (GroupKey × Int)
  | counting id value _ _ => some (batch.key id, value)
  | _ => none

/-- The points of a run without tags. -/
inductive Untagged : SyncPoint → Prop
  | loop {requests : List SyncRequest} :
      (∀ request ∈ requests, UntaggedRow request) → Untagged (.loop requests)
  | counting {id value : Int} {rest : List SyncRequest} :
      (∀ request ∈ rest, UntaggedRow request) →
        Untagged (.counting id value false rest)
  | answered {goals : List Goal} : Untagged (.answered goals)

theorem pending_mem_openKeys
    {batch : Batch} {point : SyncPoint} {key : GroupKey} {value : Int}
    (pending : point.pending? batch = some (key, value)) :
    key ∈ point.openKeys batch := by
  cases point with
  | counting id found tag rest =>
      simp only [pending?, Option.some.injEq, Prod.mk.injEq] at pending
      simp [openKeys, pending.1]
  | loop requests => cases pending
  | tagging id rest => cases pending
  | claiming id free rest => cases pending
  | answered goals => cases pending

theorem openKeys_next_sublist
    (batch : Batch) (db : Db) {point : SyncPoint}
    (untagged : point.Untagged) :
    ((point.next batch db).openKeys batch).Sublist
      (point.openKeys batch) := by
  cases untagged with
  | answered =>
      exact List.Sublist.refl _
  | counting _ =>
      exact List.sublist_cons_self _ _
  | @loop requests rows =>
      rcases requests with _ | ⟨request, rest⟩
      · exact List.Sublist.refl _
      · obtain ⟨id, value, rfl⟩ := rows request (by simp)
        simp only [next]
        split
        · exact List.Sublist.refl _
        · exact List.sublist_cons_self _ _

theorem untagged_next
    (batch : Batch) (db : Db) {point : SyncPoint}
    (untagged : point.Untagged) : (point.next batch db).Untagged := by
  cases untagged with
  | answered =>
      exact .answered
  | counting rows =>
      exact .loop rows
  | @loop requests rows =>
      rcases requests with _ | ⟨request, rest⟩
      · exact .answered
      · obtain ⟨id, value, rfl⟩ := rows request (by simp)
        have restRows : ∀ request ∈ rest, UntaggedRow request :=
          fun later member => rows later (by simp [member])
        simp only [next]
        split
        · exact .counting restRows
        · exact .loop restRows

/-- No statement of a synchronisation makes an inventory negative. -/
theorem nonneg_act
    (batch : Batch) {db : Db} (nonneg : db.NonnegInventories)
    (point : SyncPoint) : (point.act batch db).NonnegInventories := by
  cases point with
  | loop requests =>
      rcases requests with _ | ⟨_ | _, rest⟩
      · exact nonneg
      · exact Db.nonneg_takeStock nonneg _ _
      · exact nonneg
  | counting id value tag rest => exact nonneg
  | tagging id rest => exact nonneg
  | claiming id free rest => exact nonneg
  | answered goals => exact nonneg

end SyncPoint

/-- The pages ask for no tags, and no group is addressed by two requests that
are not completed. -/
structure SeparatePages
    (batches : ι → Batch) (current : PointSystem ι) : Prop where
  untagged : ∀ page, (current.points page).Untagged
  nodup : ∀ page, ((current.points page).openKeys (batches page)).Nodup
  apart :
    ∀ page other, page ≠ other →
      ∀ key ∈ (current.points page).openKeys (batches page),
        key ∉ (current.points other).openKeys (batches other)

/-- A group of the interleaved store and the same group of the serial store,
which already holds the pending count. -/
structure SettledRow
    (batches : ι → Batch) (points : ι → SyncPoint)
    (now settled : GroupRow) : Prop where
  same : settled = { now with count := settled.count }
  pending :
    ∀ page value,
      (points page).pending? (batches page) = some (now.key, value) →
        settled.count = value
  stored :
    (∀ page value,
      (points page).pending? (batches page) ≠ some (now.key, value)) →
        settled.count = now.count

/-- The serial store is the interleaved store with all pending counts
stored. -/
structure Settled
    (batches : ι → Batch) (current : PointSystem ι) (serial : Db) : Prop where
  tables : serial = { current.store with groups := serial.groups }
  rows :
    List.Forall₂ (SettledRow batches current.points)
      current.store.groups serial.groups

theorem SettledRow.key_eq
    {batches : ι → Batch} {points : ι → SyncPoint} {now settled : GroupRow}
    (row : SettledRow batches points now settled) :
    settled.key = now.key := by
  rw [row.same]
  rfl

/-- A group of an open request of one page has no pending count at another
page. -/
theorem not_pending_elsewhere
    {batches : ι → Batch} {current : PointSystem ι}
    (separate : SeparatePages batches current)
    {page other : ι} (different : page ≠ other) {key : GroupKey}
    (opened : key ∈ (current.points page).openKeys (batches page))
    (value : Int) :
    (current.points other).pending? (batches other) ≠
      some (key, value) := by
  intro pending
  exact
    separate.apart page other different key opened
      (SyncPoint.pending_mem_openKeys pending)

/-! ## The take statement reads the same in both stores -/

private theorem find?_map_of_forall₂
    {α γ : Type} {relation : α → α → Prop} {condition : α → Bool}
    {column : α → γ}
    (agree :
      ∀ left right, relation left right →
        condition left = condition right ∧
          (condition left = true → column left = column right))
    {lefts rights : List α} (related : List.Forall₂ relation lefts rights) :
    (lefts.find? condition).map column =
      (rights.find? condition).map column := by
  induction related with
  | nil =>
      rfl
  | @cons left right lefts rights headRelated _ inductionHypothesis =>
      obtain ⟨sameCondition, sameColumn⟩ := agree left right headRelated
      simp only [List.find?_cons]
      rw [← sameCondition]
      cases selected : condition left with
      | false =>
          exact inductionHypothesis
      | true =>
          exact congrArg some (sameColumn selected)

section

variable {batches : ι → Batch} {current : PointSystem ι} {serial : Db}
variable {key : GroupKey}

theorem takeSource_settled
    (settled : Settled batches current serial)
    (notPending :
      ∀ page value,
        (current.points page).pending? (batches page) ≠ some (key, value))
    (value : Int) (row : ClassRow) :
    (current.store.takeSource key value row).map GroupRow.count =
      (serial.takeSource key value row).map GroupRow.count := by
  simp only [Db.takeSource]
  apply find?_map_of_forall₂ _ settled.rows
  intro now ahead related
  by_cases sameKey : now.key = key
  · have notPendingHere :
        ∀ page value,
          (current.points page).pending? (batches page) ≠
            some (now.key, value) := by
      rw [sameKey]
      exact notPending
    have sameCount : ahead.count = now.count :=
      related.stored notPendingHere
    have same : ahead = now := by
      rw [related.same, sameCount]
    subst same
    exact ⟨rfl, fun _ => rfl⟩
  · have aheadKey : ahead.key ≠ key := by
      rw [related.key_eq]
      exact sameKey
    simp [sameKey, aheadKey]

theorem takeFrom_settled
    (settled : Settled batches current serial)
    (notPending :
      ∀ page value,
        (current.points page).pending? (batches page) ≠ some (key, value))
    (value : Int) :
    current.store.takeFrom key value = serial.takeFrom key value := by
  funext row
  have source := takeSource_settled settled notPending value row
  simp only [Db.takeFrom]
  cases left : current.store.takeSource key value row with
  | none =>
      cases right : serial.takeSource key value row with
      | none => rfl
      | some ahead => simp [left, right] at source
  | some now =>
      cases right : serial.takeSource key value row with
      | none => simp [left, right] at source
      | some ahead =>
          have sameCount : now.count = ahead.count := by
            simpa [left, right] using source
          simp [sameCount]

theorem takeAffected_settled
    (settled : Settled batches current serial)
    (notPending :
      ∀ page value,
        (current.points page).pending? (batches page) ≠ some (key, value))
    (value : Int) :
    current.store.takeAffected key value = serial.takeAffected key value := by
  have sameClasses : serial.classes = current.store.classes := by
    rw [settled.tables]
  simp only [Db.takeAffected]
  rw [sameClasses]
  congr 2
  funext row
  have source :=
    congrArg Option.isSome (takeSource_settled settled notPending value row)
  simpa using source

/-- After a take statement both stores agree as far as they did before. -/
theorem takeStock_settled
    (settled : Settled batches current serial)
    (notPending :
      ∀ page value,
        (current.points page).pending? (batches page) ≠ some (key, value))
    (value : Int) :
    serial.takeStock key value =
      { current.store.takeStock key value with groups := serial.groups } := by
  have sameClasses : serial.classes = current.store.classes := by
    rw [settled.tables]
  have taken :
      serial.classes.update (serial.takeFrom key value)
          (serial.takeFrom_id key value) =
        current.store.classes.update (current.store.takeFrom key value)
          (current.store.takeFrom_id key value) := by
    apply SerialTable.ext_rows
    · simp only [SerialTable.rows_update]
      rw [sameClasses, takeFrom_settled settled notPending]
    · change serial.classes.nextKey = current.store.classes.nextKey
      rw [sameClasses]
  simp only [Db.takeStock]
  rw [taken]
  rw [settled.tables]

/-- When no count is pending, the serial store is the interleaved one. -/
theorem settled_eq
    (settled : Settled batches current serial)
    (answered : ∀ page, ∃ goals, current.points page = .answered goals) :
    current.store = serial := by
  have noPending :
      ∀ key page value,
        (current.points page).pending? (batches page) ≠
          some (key, value) := by
    intro key page value
    obtain ⟨goals, point⟩ := answered page
    rw [point]
    simp [SyncPoint.pending?]
  have sameGroups : current.store.groups = serial.groups := by
    apply List.forall₂_eq_eq_eq ▸ settled.rows.imp ?_
    intro now ahead related
    rw [related.same, related.stored (noPending now.key)]
  rw [settled.tables, ← sameGroups]

end

/-! ## One statement -/

section Step

variable [DecidableEq ι]
variable {batches : ι → Batch} {current : PointSystem ι} {serial : Db}

theorem separatePages_step
    (separate : SeparatePages batches current) (page : ι) :
    SeparatePages batches (current.step batches page) := by
  by_cases answered : ∃ goals, current.points page = .answered goals
  · obtain ⟨goals, answered⟩ := answered
    rw [PointSystem.step_of_answered batches answered]
    exact separate
  · rw [PointSystem.step_of_running batches
      (fun goals found => answered ⟨goals, found⟩)]
    have shrinks :
        ∀ other,
          ((Function.update current.points page
              ((current.points page).next (batches page) current.store)
              other).openKeys (batches other)).Sublist
            ((current.points other).openKeys (batches other)) := by
      intro other
      by_cases same : other = page
      · subst same
        rw [Function.update_self]
        exact
          SyncPoint.openKeys_next_sublist _ _ (separate.untagged other)
      · rw [Function.update_of_ne same]
    refine ⟨?_, ?_, ?_⟩
    · intro other
      by_cases same : other = page
      · subst same
        simpa using SyncPoint.untagged_next _ _ (separate.untagged other)
      · simpa [same] using separate.untagged other
    · intro other
      exact (separate.nodup other).sublist (shrinks other)
    · intro first second different key firstOpen secondOpen
      exact
        separate.apart first second different key
          ((shrinks first).subset firstOpen)
          ((shrinks second).subset secondOpen)

/-- A row is related in the next state if the page that moves has no pending
count for its group before and after the step. -/
private theorem settledRow_update
    {page : ι} {point : SyncPoint} {now ahead : GroupRow}
    (related : SettledRow batches current.points now ahead)
    (before :
      ∀ value,
        (current.points page).pending? (batches page) ≠
          some (now.key, value))
    (after :
      ∀ value, point.pending? (batches page) ≠ some (now.key, value)) :
    SettledRow batches (Function.update current.points page point)
      now ahead := by
  refine ⟨related.same, ?_, ?_⟩
  · intro other value pending
    by_cases same : other = page
    · subst same
      rw [Function.update_self] at pending
      exact (after value pending).elim
    · rw [Function.update_of_ne same] at pending
      exact related.pending other value pending
  · intro none
    apply related.stored
    intro other value pending
    by_cases same : other = page
    · subst same
      exact before value pending
    · apply none other value
      rw [Function.update_of_ne same]
      exact pending

/-- A row of a group that no other page waits for is related in the next
state if the page that moves says so. -/
private theorem settledRow_own
    {page : ι} {point : SyncPoint} {now ahead : GroupRow}
    (same : ahead = { now with count := ahead.count })
    (elsewhere :
      ∀ other, other ≠ page → ∀ value,
        (current.points other).pending? (batches other) ≠
          some (now.key, value))
    (pending :
      ∀ value, point.pending? (batches page) = some (now.key, value) →
        ahead.count = value)
    (stored :
      (∀ value, point.pending? (batches page) ≠ some (now.key, value)) →
        ahead.count = now.count) :
    SettledRow batches (Function.update current.points page point)
      now ahead := by
  refine ⟨same, ?_, ?_⟩
  · intro other value waits
    by_cases samePage : other = page
    · subst samePage
      rw [Function.update_self] at waits
      exact pending value waits
    · rw [Function.update_of_ne samePage] at waits
      exact (elsewhere other samePage value waits).elim
  · intro none
    apply stored
    intro value waits
    apply none page value
    rw [Function.update_self]
    exact waits

/-- If the page that moves has no pending count before and after the step, and
no row changes, all rows stay related. -/
private theorem settledRows_idle
    (settled : Settled batches current serial)
    {page : ι} {next : SyncPoint}
    (before : (current.points page).pending? (batches page) = none)
    (after : next.pending? (batches page) = none) :
    List.Forall₂
      (SettledRow batches (Function.update current.points page next))
      current.store.groups serial.groups := by
  apply settled.rows.imp
  intro now ahead related
  apply settledRow_update related
  · intro value
    rw [before]
    exact (Option.some_ne_none _).symm
  · intro value
    rw [after]
    exact (Option.some_ne_none _).symm

/-- After an accepted take the count of the group is pending at the page. -/
private theorem settledRow_taken
    {page : ι} {id value : Int} {rest : List SyncRequest}
    (before : (current.points page).pending? (batches page) = none)
    (elsewhere :
      ∀ other, other ≠ page → ∀ found,
        (current.points other).pending? (batches other) ≠
          some ((batches page).key id, found))
    {now ahead : GroupRow}
    (related : SettledRow batches current.points now ahead) :
    SettledRow batches
      (Function.update current.points page (.counting id value false rest))
      now
      (if ahead.key = (batches page).key id then
        { ahead with count := value }
      else
        ahead) := by
  by_cases sameKey : now.key = (batches page).key id
  · rw [if_pos (related.key_eq.trans sameKey)]
    refine settledRow_own ?_ ?_ ?_ ?_
    · rw [related.same]
    · rw [sameKey]
      exact elsewhere
    · intro found pending
      simp only [SyncPoint.pending?, Option.some.injEq,
        Prod.mk.injEq] at pending
      exact pending.2
    · intro none
      refine (none value ?_).elim
      rw [sameKey]
      rfl
  · have aheadKey : ahead.key ≠ (batches page).key id := by
      rw [related.key_eq]
      exact sameKey
    rw [if_neg aheadKey]
    apply settledRow_update related
    · intro found
      rw [before]
      exact (Option.some_ne_none _).symm
    · intro found
      simp only [SyncPoint.pending?, ne_eq, Option.some.injEq,
        Prod.mk.injEq, not_and]
      intro same
      exact (sameKey same.symm).elim

/-- The serial execution processes a whole request when its take statement
runs. -/
theorem settled_take
    (separate : SeparatePages batches current)
    (settled : Settled batches current serial)
    {page : ι} {id value : Int} {rest : List SyncRequest}
    (point : current.points page = .loop (.row id value false :: rest)) :
    Settled batches (current.step batches page)
      (withdraw serial ((batches page).key id) value) := by
  let key := (batches page).key id
  have opened : key ∈ (current.points page).openKeys (batches page) := by
    rw [point]
    exact List.mem_cons_self
  have before : (current.points page).pending? (batches page) = none := by
    rw [point]
    rfl
  have elsewhere :
      ∀ other, other ≠ page → ∀ found,
        (current.points other).pending? (batches other) ≠
          some (key, found) :=
    fun other different =>
      not_pending_elsewhere separate (Ne.symm different) opened
  have notPending :
      ∀ other found,
        (current.points other).pending? (batches other) ≠
          some (key, found) := by
    intro other found
    by_cases same : other = page
    · rw [same, before]
      exact (Option.some_ne_none _).symm
    · exact elsewhere other same found
  have taken := takeStock_settled settled notPending value
  have sameAffected := takeAffected_settled settled notPending value
  rw [PointSystem.step_of_running batches (by simp [point]), point]
  by_cases accepted : 0 < current.store.takeAffected key value
  · have ahead :
        withdraw serial key value =
          (serial.takeStock key value).setCount key value := by
      simp only [withdraw]
      rw [← sameAffected, if_pos accepted]
    have nextPoint :
        SyncPoint.next (batches page) current.store
            (.loop (.row id value false :: rest)) =
          .counting id value false rest := by
      simp only [SyncPoint.next]
      exact if_pos accepted
    rw [ahead, taken, nextPoint]
    refine ⟨rfl, ?_⟩
    apply List.forall₂_map_right_iff.mpr
    exact
      settled.rows.imp
        (fun _ _ related => settledRow_taken before elsewhere related)
  · have ahead : withdraw serial key value = serial.takeStock key value := by
      simp only [withdraw]
      rw [← sameAffected, if_neg accepted]
    have nextPoint :
        SyncPoint.next (batches page) current.store
            (.loop (.row id value false :: rest)) = .loop rest := by
      simp only [SyncPoint.next]
      exact if_neg accepted
    rw [ahead, taken, nextPoint]
    exact ⟨rfl, settledRows_idle settled before rfl⟩

/-- A count update makes the interleaved store catch up. -/
theorem settled_count
    (separate : SeparatePages batches current)
    (settled : Settled batches current serial)
    {page : ι} {id value : Int} {rest : List SyncRequest}
    (point : current.points page = .counting id value false rest) :
    Settled batches (current.step batches page) serial := by
  let key := (batches page).key id
  have opened : key ∈ (current.points page).openKeys (batches page) := by
    rw [point]
    exact List.mem_cons_self
  have pendingHere :
      (current.points page).pending? (batches page) = some (key, value) := by
    rw [point]
    rfl
  rw [PointSystem.step_of_running batches (by simp [point]), point]
  refine ⟨?_, ?_⟩
  · conv_lhs => rw [settled.tables]
    rfl
  · apply List.forall₂_map_left_iff.mpr
    apply settled.rows.imp
    intro now settledRow related
    by_cases sameKey : now.key = key
    · have stored : settledRow.count = value := by
        apply related.pending page value
        rw [sameKey]
        exact pendingHere
      rw [if_pos sameKey]
      refine settledRow_own ?_ ?_ ?_ ?_
      · rw [related.same]
      · intro other different
        change
          ∀ found,
            (current.points other).pending? (batches other) ≠
              some (now.key, found)
        rw [sameKey]
        exact not_pending_elsewhere separate (Ne.symm different) opened
      · intro found pending
        simp [SyncPoint.next, SyncPoint.afterCount,
          SyncPoint.pending?] at pending
      · intro _
        exact stored
    · rw [if_neg sameKey]
      apply settledRow_update related
      · intro found
        rw [pendingHere]
        simp only [ne_eq, Option.some.injEq, Prod.mk.injEq, not_and]
        intro same
        exact (sameKey same.symm).elim
      · intro found
        simp [SyncPoint.next, SyncPoint.afterCount, SyncPoint.pending?]

/-- The request that a take statement belongs to, if it asks for no tag. -/
def takenRequest? : Effect → Option KitRequest
  | .takeStock key value =>
      some ⟨key.orderId, key.kitId, .row key.id value false⟩
  | _ => none

/-- The requests in the order in which their take statements run. -/
def takeOrder
    (server : Server) (system : System ι Effect Answer (List Goal) Db)
    (schedule : List ι) : List KitRequest :=
  (system.issued (perform server) schedule).filterMap
    (fun call => takenRequest? call.2)

theorem takeOrder_cons
    (server : Server) (current : PointSystem ι) (page : ι)
    (schedule : List ι) :
    takeOrder server (current.system batches) (page :: schedule) =
      (((current.points page).statement (batches page)).bind
          takenRequest?).toList ++
        takeOrder server ((current.step batches page).system batches)
          schedule := by
  simp only [takeOrder]
  rw [System.issued_cons, PointSystem.nextCall_system,
    PointSystem.system_step, List.filterMap_append]
  congr 1
  cases (current.points page).statement (batches page) with
  | none => rfl
  | some effect =>
      cases found : takenRequest? effect <;> simp [found]

/-- The serial execution follows the interleaving through every statement. -/
theorem settled_step
    (server : Server)
    (separate : SeparatePages batches current)
    (settled : Settled batches current serial) (page : ι) :
    Settled batches (current.step batches page)
      (runActions (serve server) serial
        (((current.points page).statement (batches page)).bind
          takenRequest?).toList) := by
  cases point : current.points page with
  | answered goals =>
      have unchanged : current.step batches page = current := by
        simp [PointSystem.step, point]
      rw [unchanged]
      exact settled
  | loop requests =>
      have untagged := separate.untagged page
      rw [point] at untagged
      rcases requests with _ | ⟨request, rest⟩
      · rw [PointSystem.step_of_running batches (by simp [point]), point]
        exact
          ⟨settled.tables,
            settledRows_idle settled (by rw [point]; rfl) rfl⟩
      · cases untagged with
        | loop rows =>
            obtain ⟨id, value, rfl⟩ := rows request (by simp)
            have taken := settled_take separate settled point
            change
              Settled batches (current.step batches page)
                (serve server serial
                  ⟨(batches page).orderId, (batches page).kitId,
                    .row id value false⟩)
            simp only [serve]
            rw [exec_processRequest]
            exact taken
  | counting id value tag rest =>
      have untagged := separate.untagged page
      rw [point] at untagged
      cases untagged with
      | counting _ => exact settled_count separate settled point
  | tagging id rest =>
      have untagged := separate.untagged page
      rw [point] at untagged
      cases untagged
  | claiming id free rest =>
      have untagged := separate.untagged page
      rw [point] at untagged
      cases untagged

theorem settled_run
    (server : Server) (schedule : List ι)
    (separate : SeparatePages batches current)
    (settled : Settled batches current serial) :
    Settled batches (runActions (PointSystem.step batches) current schedule)
      (runActions (serve server) serial
        (takeOrder server (current.system batches) schedule)) := by
  induction schedule generalizing current serial with
  | nil =>
      exact settled
  | cons page rest inductionHypothesis =>
      rw [takeOrder_cons, runActions_append, runActions_cons]
      exact
        inductionHypothesis (separatePages_step separate page)
          (settled_step server separate settled page)

end Step

/-- Every page asks for untagged rows only, and no two requests of all pages
address the same group. -/
structure SeparateBatches (batches : ι → Batch) : Prop where
  untagged :
    ∀ page, ∀ request ∈ (batches page).requests, UntaggedRow request
  nodup :
    ∀ page, (requestKeys (batches page) (batches page).requests).Nodup
  apart :
    ∀ page other, page ≠ other →
      ∀ key ∈ requestKeys (batches page) (batches page).requests,
        key ∉ requestKeys (batches other) (batches other).requests

/-- Interleaved synchronisations of pairwise different groups end in the store
of the serial execution in the order of the take statements, and no inventory
is negative at any time. -/
theorem interleaved_serializable
    [DecidableEq ι] (server : Server) (initial : Db)
    (nonneg : initial.NonnegInventories)
    (batches : ι → Batch) (separate : SeparateBatches batches)
    (schedule : List ι)
    (finished :
      ∀ page, (runPages server initial batches schedule).Finished page) :
    (runPages server initial batches schedule).store =
        runActions (serve server) initial
          (takeOrder server (startPages initial batches) schedule) ∧
      EveryState (System.step (perform server))
        (fun system => system.store.NonnegInventories)
        (startPages initial batches) schedule := by
  constructor
  · have separateStart :
        SeparatePages batches (PointSystem.start initial batches) :=
      ⟨fun page => .loop (separate.untagged page), separate.nodup,
        separate.apart⟩
    have settledStart :
        Settled batches (PointSystem.start initial batches) initial := by
      refine ⟨rfl, ?_⟩
      apply List.forall₂_same.mpr
      intro row _
      refine ⟨rfl, ?_, fun _ => rfl⟩
      intro page value pending
      cases pending
    have settled :=
      settled_run server schedule separateStart settledStart
    rw [PointSystem.runPages_eq] at finished ⊢
    exact
      settled_eq settled
        (fun page =>
          (PointSystem.finished_iff batches _ page).mp (finished page))
  · rw [← PointSystem.system_start,
      everyState_image (PointSystem.system_step batches server)]
    have preserved :
        ∀ (current : PointSystem ι) (page : ι),
          current.store.NonnegInventories → True →
            (current.step batches page).store.NonnegInventories := by
      intro current page currentNonneg _
      rw [PointSystem.store_step]
      exact SyncPoint.nonneg_act _ currentNonneg _
    exact
      everyState_invariant
        (fun current : PointSystem ι => current.store.NonnegInventories)
        preserved nonneg
        (everyStep_of_forall (fun _ _ => trivial) _ _)

/-- Two pages that withdraw for different groups of the same class. -/
def differentGroups : Bool → Batch
  | false => ⟨1, 0, [.row 0 5 false]⟩
  | true => ⟨1, 0, [.row 1 7 false]⟩

theorem separateBatches_differentGroups : SeparateBatches differentGroups := by
  refine ⟨?_, ?_, ?_⟩
  · intro page request member
    cases page <;> simp only [differentGroups, List.mem_singleton] at member
    · exact ⟨0, 5, member⟩
    · exact ⟨1, 7, member⟩
  · decide
  · decide

theorem interleaved_serializable_two_groups :
    (runPages Server.plain Db.bolts differentGroups
          [true, false, true, false, true, false, true]).store =
        runActions (serve Server.plain) Db.bolts
          (takeOrder Server.plain (startPages Db.bolts differentGroups)
            [true, false, true, false, true, false, true]) ∧
      EveryState (System.step (perform Server.plain))
        (fun system => system.store.NonnegInventories)
        (startPages Db.bolts differentGroups)
        [true, false, true, false, true, false, true] :=
  interleaved_serializable Server.plain Db.bolts
    (by decide : ∀ row ∈ Db.bolts.classes.rows, 0 ≤ row.inventory)
    differentGroups separateBatches_differentGroups
    [true, false, true, false, true, false, true] (by decide)

end LtlsKitting.Sync
