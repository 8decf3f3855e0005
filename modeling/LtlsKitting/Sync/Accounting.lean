import LtlsKitting.Sync.Requests

/-!
# Accounting of sequential synchronisations

If the requests are processed one after the other, the stock of every class
and the items its groups hold always add up to the same number, no inventory
becomes negative, and the columns that describe the groups stay as they are.
-/

namespace LtlsKitting.Sync

open LtlsKitting.Php LtlsKitting.Store LtlsKitting.Interaction

/-- A request together with the kit of the page that sent it. -/
structure KitRequest where
  orderId : Int
  kitId : Int
  request : SyncRequest

/-- The server processes one request. -/
def serve (server : Server) (db : Db) (action : KitRequest) : Db :=
  (processRequest action.orderId action.kitId action.request).exec
    (perform server) db

/-- The books balance with respect to an initial store. -/
structure Accounted (initial db : Db) : Prop where
  nonneg : db.NonnegInventories
  conserved :
    ∀ classId,
      db.inventory classId + db.withdrawn classId =
        initial.inventory classId + initial.withdrawn classId
  fixed :
    db.groups.map GroupRow.fixed = initial.groups.map GroupRow.fixed

/-- A take and its count update move items between the stock and a group. -/
theorem withdraw_conserves {db : Db}
    (identified : db.GroupsIdentified) (key : GroupKey)
    (value classId : Int) :
    (withdraw db key value).inventory classId +
        (withdraw db key value).withdrawn classId =
      db.inventory classId + db.withdrawn classId := by
  by_cases accepted : db.Accepts key value
  · rw [withdraw_of_accepts accepted]
    obtain ⟨group, member, rfl, row, rowMember, sameClass, enough⟩ := accepted
    have taken :=
      Db.inventory_takeStock identified member rowMember sameClass enough
        classId
    have counted :
        ((db.takeStock group.key value).setCount group.key value).withdrawn
            classId =
          db.withdrawn classId +
            (if group.classId = classId then value - group.count else 0) :=
      @Db.withdrawn_setCount (db.takeStock group.key value)
        identified group member value classId
    rw [Db.inventory_setCount, taken, counted]
    omega
  · rw [withdraw_of_not_accepts accepted]

theorem withdraw_nonneg {db : Db}
    (nonneg : db.NonnegInventories) (key : GroupKey) (value : Int) :
    (withdraw db key value).NonnegInventories := by
  have taken := Db.nonneg_takeStock nonneg key value
  simp only [withdraw]
  split
  · exact taken
  · exact taken

theorem withdraw_fixed (db : Db) (key : GroupKey) (value : Int) :
    (withdraw db key value).groups.map GroupRow.fixed =
      db.groups.map GroupRow.fixed := by
  simp only [withdraw]
  split
  · exact Db.fixed_setCount (db.takeStock key value) key value
  · rfl

/-- One request of any kind keeps the books balanced. -/
theorem applyRequest_accounted {initial db : Db}
    (identified : initial.GroupsIdentified)
    (accounted : Accounted initial db)
    (orderId kitId : Int) (request : SyncRequest) :
    Accounted initial (applyRequest db orderId kitId request) := by
  have currentIdentified : db.GroupsIdentified :=
    Db.groupsIdentified_of_fixed accounted.fixed.symm identified
  cases request with
  | status status =>
      exact ⟨accounted.nonneg, accounted.conserved, accounted.fixed⟩
  | row id value tag =>
      let key : GroupKey := ⟨orderId, kitId, id⟩
      have withdrawn : Accounted initial (withdraw db key value) := by
        refine ⟨withdraw_nonneg accounted.nonneg key value, ?_, ?_⟩
        · intro classId
          rw [withdraw_conserves currentIdentified]
          exact accounted.conserved classId
        · rw [withdraw_fixed]
          exact accounted.fixed
      change Accounted initial (label (withdraw db key value) key tag)
      cases tag with
      | false =>
          exact withdrawn
      | true =>
          refine ⟨withdrawn.nonneg, ?_, ?_⟩
          · intro classId
            simp only [label, ↓reduceIte, Db.inventory_setTag,
              Db.withdrawn_setTag]
            exact withdrawn.conserved classId
          · simp only [label, ↓reduceIte, Db.fixed_setTag]
            exact withdrawn.fixed

/-- Every state that a sequence of requests passes through is balanced: from
identified groups and inventories that are not negative, whatever kits, ids,
values, tags and statuses the requests name. -/
theorem serve_accounted
    (server : Server) (initial : Db)
    (nonneg : initial.NonnegInventories)
    (identified : initial.GroupsIdentified)
    (actions : List KitRequest) :
    EveryState (serve server) (Accounted initial) initial actions := by
  have preserved :
      ∀ db action,
        Accounted initial db → True →
          Accounted initial (serve server db action) := by
    intro db action accounted _
    simp only [serve]
    rw [exec_processRequest]
    exact applyRequest_accounted identified accounted _ _ _
  apply everyState_invariant (Accounted initial) preserved
  · exact ⟨nonneg, fun _ => rfl, rfl⟩
  · exact everyStep_of_forall (fun _ _ => trivial) _ _

/-- Withdrawals, a return, a refused withdrawal, a missing group, a tag and a
status for the two groups of bolts. -/
theorem serve_accounted_bolts :
    EveryState (serve Server.plain) (Accounted Db.bolts) Db.bolts
      [⟨1, 0, .row 0 5 true⟩, ⟨1, 0, .row 1 7 false⟩, ⟨1, 0, .row 0 2 false⟩,
        ⟨1, 0, .status 1⟩, ⟨1, 0, .row 9 1 true⟩, ⟨1, 0, .row 1 5 true⟩] :=
  serve_accounted Server.plain Db.bolts
    (by decide : ∀ row ∈ Db.bolts.classes.rows, 0 ≤ row.inventory)
    (by decide : (Db.bolts.groups.map GroupRow.key).Nodup)
    [⟨1, 0, .row 0 5 true⟩, ⟨1, 0, .row 1 7 false⟩, ⟨1, 0, .row 0 2 false⟩,
      ⟨1, 0, .status 1⟩, ⟨1, 0, .row 9 1 true⟩, ⟨1, 0, .row 1 5 true⟩]

end LtlsKitting.Sync
