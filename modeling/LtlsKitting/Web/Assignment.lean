import LtlsKitting.Store.Consistency
import LtlsKitting.Web.Index

/-!
# The assignment of kits

Kits are numbered within their order, so a number names a kit of every order.
The statement that assigns an opened kit to its user has the number of the kit
as its only condition, and it assigns all kits of that number.
-/

namespace LtlsKitting.Web

open LtlsKitting.Php LtlsKitting.Store LtlsKitting.Operations
open LtlsKitting.Interaction LtlsKitting.Relational

/-- The request views the page of a kit. -/
structure HttpRequest.OpensKit
    (request : HttpRequest) (orderId kitId : Int) : Prop where
  displayed : request.get.has (bytes "ajax") = false
  posted : request.post = []
  scenario :
    request.get.hasValue (bytes "scenario") (bytes "kitting") = true
  order :
    (request.get.value (bytes "order_id")).map Param.intval = some orderId
  kit : (request.get.value (bytes "kit_id")).map Param.intval = some kitId

/-- Only the given kit is assigned to the user, and the tables beside the kits
are the same. -/
structure AssignsOnly
    (db after : Db) (userId orderId kitId : Int) : Prop where
  kits :
    after.kits =
      updateWhere (fun row => row.key = (orderId, kitId))
        (fun row => { row with userId := some userId }) db.kits
  orders : after.orders = db.orders
  groups : after.groups = db.groups
  classes : after.classes = db.classes
  tags : after.tags = db.tags

section

variable {server : Server} {db : Db} {request : HttpRequest}
variable {session : Session} {role : Role} {orderId kitId : Int}

/-- The order and the kit of the request are found if the kit exists. -/
theorem eval_selectCurrent_of_exists
    (scheme : Numbered kitNumbering db.orders.rows db.kits)
    (opens : request.OpensKit orderId kitId)
    (present : (orderId, kitId) ∈ db.kits.map KitRow.key) :
    ∃ order kit,
      (selectCurrent (request.get.value (bytes "order_id"))
            (request.get.value (bytes "kit_id"))).eval (perform server) db =
          (some order, some kit) ∧
        kit.id = kitId := by
  obtain ⟨row, member, isKey⟩ := List.mem_map.mp present
  obtain ⟨order, orderMember, isParent⟩ := scheme.adopted row member
  have isOrder : order.id = orderId :=
    isParent.trans (congrArg Prod.fst isKey)
  have foundOrder : db.orders.lookup orderId = some order := by
    rw [← isOrder]
    exact SerialTable.lookup_eq_some orderMember
  obtain ⟨orderParam, hasOrder, readOrder⟩ :=
    Option.map_eq_some_iff.mp opens.order
  obtain ⟨kitParam, hasKit, readKit⟩ := Option.map_eq_some_iff.mp opens.kit
  cases foundKit : db.findKit orderId kitId with
  | none =>
      have missing := List.find?_eq_none.mp foundKit row member
      have named : row.orderId = orderId ∧ row.id = kitId :=
        ⟨congrArg Prod.fst isKey, congrArg Prod.snd isKey⟩
      exact absurd (by simpa using named) missing
  | some kit =>
      have isKit := List.find?_some foundKit
      simp only [decide_eq_true_eq] at isKit
      refine ⟨order, kit, ?_, isKit.2⟩
      have orderRead :
          (query (.findOrder orderId)).eval (perform server) db =
            some order :=
        foundOrder
      rw [hasOrder, hasKit]
      simp only [selectCurrent]
      rw [Program.eval_bind, readOrder, orderRead]
      dsimp only
      rw [Program.eval_bind, readKit, isOrder]
      exact congrArg (fun found => (some order, found)) foundKit

theorem exec_dispatch_of_opensKit
    (opens : request.OpensKit orderId kitId)
    (notAdmin : role.isAdmin = false) (runtime : Runtime)
    (order : OrderRow) (kit : KitRow) (messages : List Message) :
    (dispatch runtime request (some role) (some order, some kit)
          messages).exec (perform server) db =
      db.assignKit role.id kit.id := by
  have noPost : request.post.isEmpty = true := by
    rw [opens.posted]
    rfl
  simp only [dispatch, opens.displayed, noPost, Bool.not_true,
    Bool.false_and, Bool.false_eq_true, if_false]
  rw [Program.exec_bind]
  simp only [display, pageContent, pages, opens.scenario, if_true]
  rw [Program.exec_bind, exec_pageKit, notAdmin]
  rfl

/-- What a view of a kit page does to the store. -/
theorem exec_index_of_opensKit
    (scheme : Numbered kitNumbering db.orders.rows db.kits)
    (opens : request.OpensKit orderId kitId)
    (present : (orderId, kitId) ∈ db.kits.map KitRow.key)
    (isRole : requestRole server db request session = some role)
    (notAdmin : role.isAdmin = false) (runtime : Runtime) :
    (index runtime request session).exec (perform server) db =
      db.assignKit role.id kitId := by
  obtain ⟨order, kit, current, isKit⟩ :=
    @eval_selectCurrent_of_exists server db request orderId kitId scheme opens
      present
  have noCode : request.post.value (bytes "code") = none := by
    rw [opens.posted]
    rfl
  simp only [index]
  rw [Program.exec_bind, Program.exec_bind, Program.exec_bind,
    eval_authenticate, isRole,
    exec_of_reads (authenticate_reads request session) server db]
  simp only [prepare, operations, noCode]
  rw [Program.exec_bind, Program.eval_bind, current,
    exec_of_reads (selectCurrent_reads _ _) server db]
  rw [← isKit]
  exact exec_dispatch_of_opensKit opens notAdmin runtime order kit _

/-- The assignment touches no other kit exactly if the other kits of that
number are assigned to the user already. -/
theorem assignsOnly_assignKit_iff (userId : Int) :
    AssignsOnly db (db.assignKit userId kitId) userId orderId kitId ↔
      ∀ other ∈ db.kits, other.id = kitId → other.orderId ≠ orderId →
        other.userId = some userId := by
  have sameKits :
      (db.assignKit userId kitId).kits =
          updateWhere (fun row => row.key = (orderId, kitId))
            (fun row => { row with userId := some userId }) db.kits ↔
        ∀ row ∈ db.kits,
          (if row.id = kitId then { row with userId := some userId }
              else row) =
            if row.key = (orderId, kitId) then
              { row with userId := some userId }
            else
              row :=
    List.map_inj_left
  constructor
  · intro only other member isNumber elsewhere
    have same := sameKits.mp only.kits other member
    have notNamed : other.key ≠ (orderId, kitId) :=
      fun isKey => elsewhere (congrArg Prod.fst isKey)
    rw [if_pos isNumber, if_neg notNamed] at same
    exact (congrArg KitRow.userId same).symm
  · intro assigned
    refine ⟨sameKits.mpr ?_, rfl, rfl, rfl, rfl⟩
    intro row member
    by_cases isNumber : row.id = kitId
    · by_cases isOrder : row.orderId = orderId
      · have named : row.key = (orderId, kitId) := by
          rw [KitRow.key, isOrder, isNumber]
        rw [if_pos isNumber, if_pos named]
      · have notNamed : row.key ≠ (orderId, kitId) :=
          fun isKey => isOrder (congrArg Prod.fst isKey)
        rw [if_pos isNumber, if_neg notNamed,
          ← assigned row member isNumber isOrder]
    · have notNamed : row.key ≠ (orderId, kitId) :=
        fun isKey => isNumber (congrArg Prod.snd isKey)
      rw [if_neg isNumber, if_neg notNamed]

end

/-- A view of a kit page by a user assigns only that kit exactly if every kit
of the same number in another order is assigned to the user already. -/
theorem opening_assigns_only_iff
    (server : Server) (runtime : Runtime) (db : Db)
    (request : HttpRequest) (session : Session) (role : Role)
    (orderId kitId : Int)
    (scheme : Numbered kitNumbering db.orders.rows db.kits)
    (opens : request.OpensKit orderId kitId)
    (present : (orderId, kitId) ∈ db.kits.map KitRow.key)
    (isRole : requestRole server db request session = some role)
    (notAdmin : role.isAdmin = false) :
    AssignsOnly db
        ((index runtime request session).exec (perform server) db)
        role.id orderId kitId ↔
      ∀ other ∈ db.kits, other.id = kitId → other.orderId ≠ orderId →
        other.userId = some role.id := by
  rw [exec_index_of_opensKit scheme opens present isRole notAdmin runtime]
  exact assignsOnly_assignKit_iff role.id

/-- The view of the first kit of the first order. -/
def firstKitView : HttpRequest where
  get :=
    [(bytes "scenario", .text (bytes "kitting")),
      (bytes "order_id", .text (bytes "1")),
      (bytes "kit_id", .text (bytes "0"))]
  post := []
  request := []

theorem firstKitView_opensKit : firstKitView.OpensKit 1 0 where
  displayed := by decide
  posted := rfl
  scenario := by decide
  order := by decide
  kit := by decide

/-- A store with two orders of one kit each.  That of the second order was
opened by the user when the first order had no kit. -/
def secondOpened : Db :=
  (((({ Db.empty with users := staffed.users }.insertOrder).insertOrder).insertKit
    0 2).assignKit 1 0).insertKit 0 1

theorem secondOpened_consistent : secondOpened.Consistent :=
  (((((Db.consistent_empty staffed.users).insertOrder).insertOrder).insertKit
    0 2).assignKit 1 0).insertKit 0 1

theorem opening_assigns_only_iff_secondOpened :
    AssignsOnly secondOpened
      ((index Runtime.plain firstKitView bobSession).exec
        (perform Server.plain) secondOpened) 1 1 0 :=
  (opening_assigns_only_iff Server.plain Runtime.plain secondOpened
    firstKitView bobSession ⟨1, bytes "Bob"⟩ 1 0 secondOpened_consistent.kits
    firstKitView_opensKit (by decide) (by decide) (by decide)).mpr
    (by decide)

/-- A store with an order of one kit. -/
def oneOrder : Db :=
  ({ Db.empty with users := staffed.users }.insertOrder).insertKit 0 1

/-- A store with two orders of one kit each. -/
def twoOrders : Db :=
  (oneOrder.insertOrder).insertKit 0 2

theorem oneOrder_consistent : oneOrder.Consistent :=
  ((Db.consistent_empty staffed.users).insertOrder).insertKit 0 1

/-- The first kit of the second order is assigned with that of the first. -/
theorem opening_assigns_both_orders :
    twoOrders.Consistent ∧ firstKitView.OpensKit 1 0 ∧
      (1, 0) ∈ twoOrders.kits.map KitRow.key ∧
        requestRole Server.plain twoOrders firstKitView bobSession =
            some ⟨1, bytes "Bob"⟩ ∧
          ¬ AssignsOnly twoOrders
            ((index Runtime.plain firstKitView bobSession).exec
              (perform Server.plain) twoOrders) 1 1 0 := by
  refine
    ⟨oneOrder_consistent.insertOrder.insertKit 0 2, firstKitView_opensKit,
      by decide, by decide, ?_⟩
  intro only
  have kits := only.kits
  revert kits
  decide

end LtlsKitting.Web
