import LtlsKitting.Interaction.Interleaving
import LtlsKitting.Sync.Requests

/-!
# Interleaved synchronisations

Any number of pages synchronise at the same time.  Every page runs `syncKit`
for its own kit and its own array of requests, and the database executes their
statements in any order.

`SyncPoint` names the places between two statements of such a run, and
`PointSystem` is the interleaving of pages that stand at such places.  The map
`PointSystem.system` shows that it is the interleaving of the programs
themselves, so a statement about the programs may be proved about the places.
-/

namespace LtlsKitting.Sync

open LtlsKitting.Php LtlsKitting.Store LtlsKitting.Interaction

/-- The array of requests that one page posts for its kit. -/
structure Batch where
  orderId : Int
  kitId : Int
  requests : List SyncRequest

def Batch.program (batch : Batch) : Php (List Goal) :=
  syncKit batch.orderId batch.kitId batch.requests

/-- The pages before their first statement. -/
def startPages {ι : Type} (initial : Db) (batches : ι → Batch) :
    System ι Effect Answer (List Goal) Db :=
  System.start initial (fun page => (batches page).program)

/-- The pages after the statements that the schedule names. -/
def runPages {ι : Type} [DecidableEq ι]
    (server : Server) (initial : Db) (batches : ι → Batch)
    (schedule : List ι) : System ι Effect Answer (List Goal) Db :=
  runActions (System.step (perform server))
    (startPages initial batches) schedule

/-- The key of a group of the batch's kit. -/
def Batch.key (batch : Batch) (id : Int) : GroupKey :=
  ⟨batch.orderId, batch.kitId, id⟩

/-- Where a page stands between two statements. -/
inductive SyncPoint where
  | loop (requests : List SyncRequest)
  | counting (id value : Int) (tag : Bool) (rest : List SyncRequest)
  | tagging (id : Int) (rest : List SyncRequest)
  | claiming (id : Int) (free : Option Bytes) (rest : List SyncRequest)
  | answered (goals : List Goal)

namespace SyncPoint

/-- Where a request continues once its count has been dealt with. -/
def afterCount (id : Int) (tag : Bool) (rest : List SyncRequest) :
    SyncPoint :=
  if tag then tagging id rest else loop rest

/-- The program that is left at a point. -/
def program (batch : Batch) : SyncPoint → Php (List Goal)
  | loop requests => syncKit batch.orderId batch.kitId requests
  | counting id value tag rest => do
      query (.setCount (batch.key id) value)
      assignTag (batch.key id) tag
      syncKit batch.orderId batch.kitId rest
  | tagging id rest => do
      assignTag (batch.key id) true
      syncKit batch.orderId batch.kitId rest
  | claiming id free rest => do
      query (.setTag (batch.key id) free)
      syncKit batch.orderId batch.kitId rest
  | answered goals => pure goals

/-- The statement that a point issues next. -/
def statement (batch : Batch) : SyncPoint → Option Effect
  | loop [] => some (.kitGoals batch.orderId batch.kitId)
  | loop (.status status :: _) =>
      some (.setStatus batch.orderId batch.kitId status)
  | loop (.row id value _ :: _) => some (.takeStock (batch.key id) value)
  | counting id value _ _ => some (.setCount (batch.key id) value)
  | tagging _ _ => some .freeTag
  | claiming id free _ => some (.setTag (batch.key id) free)
  | answered _ => none

/-- What the next statement of a point does to the store. -/
def act (batch : Batch) (db : Db) : SyncPoint → Db
  | loop [] => db
  | loop (.status status :: _) =>
      db.setStatus batch.orderId batch.kitId status
  | loop (.row id value _ :: _) => db.takeStock (batch.key id) value
  | counting id value _ _ => db.setCount (batch.key id) value
  | tagging _ _ => db
  | claiming id free _ => db.setTag (batch.key id) free
  | answered _ => db

/-- Where a point continues after its next statement. -/
def next (batch : Batch) (db : Db) : SyncPoint → SyncPoint
  | loop [] => answered (db.kitGoals batch.orderId batch.kitId)
  | loop (.status _ :: rest) => loop rest
  | loop (.row id value tag :: rest) =>
      if 0 < db.takeAffected (batch.key id) value then
        counting id value tag rest
      else
        afterCount id tag rest
  | counting id _ tag rest => afterCount id tag rest
  | tagging id rest => claiming id db.freeTag rest
  | claiming _ _ rest => loop rest
  | answered goals => answered goals

/-! ## The statement that a point issues -/

section

variable (batch : Batch)

theorem program_afterCount
    (id : Int) (tag : Bool) (rest : List SyncRequest) :
    (afterCount id tag rest).program batch =
      (assignTag (batch.key id) tag >>= fun _ =>
        syncKit batch.orderId batch.kitId rest) := by
  cases tag <;> rfl

theorem program_loop_nil :
    (loop []).program batch =
      .call (.kitGoals batch.orderId batch.kitId)
        (fun goals => (answered goals).program batch) := rfl

theorem program_loop_status (status : Int) (rest : List SyncRequest) :
    (loop (.status status :: rest)).program batch =
      .call (.setStatus batch.orderId batch.kitId status)
        (fun _ => (loop rest).program batch) := rfl

theorem program_loop_row
    (id value : Int) (tag : Bool) (rest : List SyncRequest) :
    (loop (.row id value tag :: rest)).program batch =
      .call (.takeStock (batch.key id) value)
        (fun affected =>
          (if 0 < affected then
            counting id value tag rest
          else
            afterCount id tag rest).program batch) := by
  have unfolded :
      (loop (.row id value tag :: rest)).program batch =
        .call (.takeStock (batch.key id) value)
          (fun affected =>
            updateCount (batch.key id) value affected >>= fun _ =>
              assignTag (batch.key id) tag >>= fun _ =>
                syncKit batch.orderId batch.kitId rest) := by
    simp only [program, syncKit, requestsLoop, processRequest,
      Program.bind_bind]
    rfl
  rw [unfolded]
  congr 1
  funext affected
  by_cases accepted : 0 < affected
  · simp only [updateCount, accepted, ↓reduceIte]
    rfl
  · simp only [updateCount, accepted, ↓reduceIte, program_afterCount]
    rfl

theorem program_counting
    (id value : Int) (tag : Bool) (rest : List SyncRequest) :
    (counting id value tag rest).program batch =
      .call (.setCount (batch.key id) value)
        (fun _ => (afterCount id tag rest).program batch) := by
  simp only [program_afterCount]
  rfl

theorem program_tagging (id : Int) (rest : List SyncRequest) :
    (tagging id rest).program batch =
      .call .freeTag
        (fun free => (claiming id free rest).program batch) := rfl

theorem program_claiming
    (id : Int) (free : Option Bytes) (rest : List SyncRequest) :
    (claiming id free rest).program batch =
      .call (.setTag (batch.key id) free)
        (fun _ => (loop rest).program batch) := rfl

end

/-- No statement of a synchronisation changes the fixed columns. -/
theorem fixed_act (batch : Batch) (db : Db) (point : SyncPoint) :
    (point.act batch db).groups.map GroupRow.fixed =
      db.groups.map GroupRow.fixed := by
  cases point with
  | loop requests =>
      rcases requests with _ | ⟨_ | _, rest⟩ <;> rfl
  | counting id value tag rest =>
      exact Db.fixed_setCount db (batch.key id) value
  | tagging id rest =>
      rfl
  | claiming id free rest =>
      exact Db.fixed_setTag db (batch.key id) free
  | answered goals =>
      rfl

end SyncPoint

/-! ## The interleaving of points -/

/-- The store, the points of the pages, and the stores their latest
statements acted on. -/
structure PointSystem (ι : Type) where
  store : Db
  points : ι → SyncPoint
  seen : ι → Db

namespace PointSystem

variable {ι : Type}

/-- All pages before their first statement. -/
def start (db : Db) (batches : ι → Batch) : PointSystem ι where
  store := db
  points := fun page => .loop (batches page).requests
  seen := fun _ => db

/-- The system of the programs that are left. -/
def system (batches : ι → Batch) (current : PointSystem ι) :
    System ι Effect Answer (List Goal) Db where
  store := current.store
  clients := fun page =>
    ⟨(current.points page).program (batches page), current.seen page⟩

theorem system_start (db : Db) (batches : ι → Batch) :
    (start db batches).system batches = startPages db batches := rfl

/-- The call that a program issues next is the statement of its point. -/
theorem nextCall_system
    (batches : ι → Batch) (current : PointSystem ι) (page : ι) :
    (current.system batches).nextCall page =
      (current.points page).statement (batches page) := by
  have left :
      ((current.system batches).clients page).program =
        (current.points page).program (batches page) := rfl
  cases point : current.points page with
  | answered goals =>
      rw [point] at left
      exact System.nextCall_done left
  | loop requests =>
      rw [point] at left
      rcases requests with _ | ⟨_ | _, rest⟩
      · exact System.nextCall_call left
      · rw [SyncPoint.program_loop_row] at left
        exact System.nextCall_call left
      · exact System.nextCall_call left
  | counting id value tag rest =>
      rw [point] at left
      exact System.nextCall_call left
  | tagging id rest =>
      rw [point] at left
      exact System.nextCall_call left
  | claiming id free rest =>
      rw [point] at left
      exact System.nextCall_call left

/-- A finished program is an answered page. -/
theorem finished_iff
    (batches : ι → Batch) (current : PointSystem ι) (page : ι) :
    (current.system batches).Finished page ↔
      ∃ goals, current.points page = .answered goals := by
  simp only [System.Finished]
  rw [nextCall_system]
  cases point : current.points page with
  | answered goals =>
      simp [SyncPoint.statement]
  | loop requests =>
      rcases requests with _ | ⟨_ | _, rest⟩ <;>
        simp [SyncPoint.statement]
  | counting id value tag rest =>
      simp [SyncPoint.statement]
  | tagging id rest =>
      simp [SyncPoint.statement]
  | claiming id free rest =>
      simp [SyncPoint.statement]

variable [DecidableEq ι]

/-- The database executes the next statement of one page. -/
def step
    (batches : ι → Batch) (current : PointSystem ι) (page : ι) :
    PointSystem ι :=
  match current.points page with
  | .answered _ => current
  | point =>
      { store := point.act (batches page) current.store
        points :=
          Function.update current.points page
            (point.next (batches page) current.store)
        seen := Function.update current.seen page current.store }

variable (batches : ι → Batch)

/-- An answered page issues no statement. -/
theorem step_of_answered
    {current : PointSystem ι} {page : ι} {goals : List Goal}
    (answered : current.points page = .answered goals) :
    current.step batches page = current := by
  simp only [step, answered]

/-- The step of a page that has not been answered yet. -/
theorem step_of_running
    {current : PointSystem ι} {page : ι}
    (running : ∀ goals, current.points page ≠ .answered goals) :
    current.step batches page =
      { store := (current.points page).act (batches page) current.store
        points :=
          Function.update current.points page
            ((current.points page).next (batches page) current.store)
        seen := Function.update current.seen page current.store } := by
  unfold step
  split
  · rename_i goals found
    exact (running goals found).elim
  · rfl

/-- The store after a step is the one the statement leaves. -/
theorem store_step (current : PointSystem ι) (page : ι) :
    (current.step batches page).store =
      (current.points page).act (batches page) current.store := by
  simp only [step]
  split
  · rename_i goals answered
    rw [answered]
    rfl
  · rfl

private theorem system_update
    (current : PointSystem ι) (page : ι)
    (db : Db) (point : SyncPoint) :
    PointSystem.system batches
        { store := db
          points := Function.update current.points page point
          seen := Function.update current.seen page current.store } =
      { store := db
        clients :=
          Function.update (current.system batches).clients page
            ⟨point.program (batches page), current.store⟩ } := by
  simp only [system]
  congr 1
  funext other
  by_cases same : other = page
  · subst same
    simp
  · simp [same]

/-- The statements of the programs are the steps of the points. -/
theorem system_step
    (server : Server) (current : PointSystem ι) (page : ι) :
    (current.system batches).step (perform server) page =
      (current.step batches page).system batches := by
  have left :
      ((current.system batches).clients page).program =
        (current.points page).program (batches page) := rfl
  cases point : current.points page with
  | answered goals =>
      rw [point] at left
      rw [System.step_done left, step_of_answered batches point]
  | loop requests =>
      rw [step_of_running batches (by simp [point]), system_update, point]
      rw [point] at left
      rcases requests with _ | ⟨request, rest⟩
      · rw [SyncPoint.program_loop_nil] at left
        rw [System.step_call left]
        rfl
      · cases request with
        | status status =>
            rw [SyncPoint.program_loop_status] at left
            rw [System.step_call left]
            rfl
        | row id value tag =>
            rw [SyncPoint.program_loop_row] at left
            rw [System.step_call left]
            rfl
  | counting id value tag rest =>
      rw [step_of_running batches (by simp [point]), system_update, point]
      rw [point, SyncPoint.program_counting] at left
      rw [System.step_call left]
      rfl
  | tagging id rest =>
      rw [step_of_running batches (by simp [point]), system_update, point]
      rw [point, SyncPoint.program_tagging] at left
      rw [System.step_call left]
      rfl
  | claiming id free rest =>
      rw [step_of_running batches (by simp [point]), system_update, point]
      rw [point, SyncPoint.program_claiming] at left
      rw [System.step_call left]
      rfl

/-- A run of the programs is a run of the points. -/
theorem runPages_eq
    (server : Server) (initial : Db) (schedule : List ι) :
    runPages server initial batches schedule =
      (runActions (step batches) (start initial batches)
        schedule).system batches := by
  simp only [runPages]
  rw [← system_start]
  exact runActions_image (system_step batches server) _ _

end PointSystem

end LtlsKitting.Sync
