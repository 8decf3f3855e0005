import LtlsKitting.Sync.Accounting
import Mathlib.Algebra.Order.BigOperators.Group.List

/-!
# Batches that can be satisfied

A batch of row requests of one kit asks each of its groups for a value.  If
every class has enough items for all increases of the batch at once, each
request is accepted whatever the order, because the requests that come before
leave at least what the remaining ones need.  The final store then only
depends on the values that are asked for.
-/

namespace LtlsKitting.Sync

open LtlsKitting.Php LtlsKitting.Store LtlsKitting.Interaction
open LtlsKitting.Relational

/-- The ids and values of a batch of row requests. -/
abbrev RowBatch := List (Int × Int)

/-- The requests of a batch; none asks for a tag. -/
def RowBatch.requests (batch : RowBatch) : List SyncRequest :=
  batch.map (fun wish => .row wish.1 wish.2 false)

/-- The value that the batch asks for, if it addresses the group. -/
def batchValue
    (orderId kitId : Int) (batch : RowBatch) (group : GroupRow) : Option Int :=
  if group.orderId = orderId ∧ group.kitId = kitId then
    batch.lookup group.id
  else
    none

/-- The items that the batch withdraws for a group; a negative number of items
is returned. -/
def batchWithdrawal
    (orderId kitId : Int) (batch : RowBatch) (group : GroupRow) : Int :=
  match batchValue orderId kitId batch group with
  | some value => value - group.count
  | none => 0

/-- The sum over the groups of a class of what is counted of each
withdrawal. -/
def batchSum
    (counted : Int → Int) (db : Db) (orderId kitId : Int) (batch : RowBatch)
    (classId : Int) : Int :=
  columnSum
    (fun group =>
      if group.classId = classId then
        counted (batchWithdrawal orderId kitId batch group)
      else
        0)
    db.groups

/-- The items of a class that the batch withdraws, returns not counted. -/
def batchDemand
    (db : Db) (orderId kitId : Int) (batch : RowBatch) (classId : Int) : Int :=
  batchSum (max 0) db orderId kitId batch classId

/-- The items of a class that the batch withdraws, less those it returns. -/
def batchTotal
    (db : Db) (orderId kitId : Int) (batch : RowBatch) (classId : Int) : Int :=
  batchSum (fun items => items) db orderId kitId batch classId

/-- The class of every group that the batch addresses has enough items. -/
def Satisfiable (db : Db) (orderId kitId : Int) (batch : RowBatch) : Prop :=
  ∀ group ∈ db.groups, (batchValue orderId kitId batch group).isSome →
    ∃ row ∈ db.classes.rows,
      row.id = group.classId ∧
        batchDemand db orderId kitId batch row.id ≤ row.inventory

/-- The group with the value of the batch. -/
def settledGroup
    (orderId kitId : Int) (batch : RowBatch) (group : GroupRow) : GroupRow :=
  match batchValue orderId kitId batch group with
  | some value => { group with count := value }
  | none => group

/-- The class with the inventory that the batch leaves. -/
def settledClass
    (db : Db) (orderId kitId : Int) (batch : RowBatch) (row : ClassRow) :
    ClassRow :=
  { row with
    inventory := row.inventory - batchTotal db orderId kitId batch row.id }

theorem settledClass_id
    (db : Db) (orderId kitId : Int) (batch : RowBatch) (row : ClassRow) :
    (settledClass db orderId kitId batch row).id = row.id := rfl

/-- The store in which every group has the value that the batch asks for. -/
def settledStore (db : Db) (orderId kitId : Int) (batch : RowBatch) : Db :=
  { db with
    classes :=
      db.classes.update (settledClass db orderId kitId batch)
        (settledClass_id db orderId kitId batch)
    groups := db.groups.map (settledGroup orderId kitId batch) }

/-- A row request for an existing group is accepted. -/
def AcceptedIfPresent
    (orderId kitId : Int) (db : Db) : SyncRequest → Prop
  | .row id value _ =>
      (∃ group ∈ db.groups, group.key = ⟨orderId, kitId, id⟩) →
        db.Accepts ⟨orderId, kitId, id⟩ value
  | .status _ => True

section

variable {orderId kitId : Int}

/-! ## The values of a batch -/

theorem lookup_cons_of_eq {id : Int} {wish : Int × Int}
    (same : id = wish.1) (rest : RowBatch) :
    List.lookup id (wish :: rest) = some wish.2 := by
  rw [List.lookup_cons, same, beq_self_eq_true]

theorem lookup_cons_of_ne {id : Int} {wish : Int × Int}
    (different : id ≠ wish.1) (rest : RowBatch) :
    List.lookup id (wish :: rest) = rest.lookup id := by
  have test : (id == wish.1) = false := by
    simpa using different
  rw [List.lookup_cons, test]

theorem lookup_eq_none {batch : RowBatch} {id : Int}
    (missing : id ∉ batch.map Prod.fst) : batch.lookup id = none := by
  induction batch with
  | nil =>
      rfl
  | cons wish rest inductionHypothesis =>
      rw [List.map_cons, List.mem_cons, not_or] at missing
      rw [lookup_cons_of_ne missing.1, inductionHypothesis missing.2]

theorem mem_of_lookup {batch : RowBatch} {id value : Int}
    (found : batch.lookup id = some value) : (id, value) ∈ batch := by
  induction batch with
  | nil =>
      cases found
  | cons wish rest inductionHypothesis =>
      by_cases same : id = wish.1
      · rw [lookup_cons_of_eq same, Option.some.injEq] at found
        rw [same, ← found]
        exact List.mem_cons_self ..
      · rw [lookup_cons_of_ne same] at found
        exact List.mem_cons_of_mem _ (inductionHypothesis found)

/-- The order of the requests has no influence on the values. -/
theorem lookup_of_perm {order batch : RowBatch} (reordered : order.Perm batch)
    (different : (order.map Prod.fst).Nodup) (id : Int) :
    order.lookup id = batch.lookup id := by
  induction reordered with
  | nil =>
      rfl
  | cons wish rest inductionHypothesis =>
      have later := inductionHypothesis (List.nodup_cons.mp different).2
      rw [List.lookup_cons, List.lookup_cons, later]
  | swap first second rest =>
      have apart : second.1 ≠ first.1 := by
        intro same
        exact (List.nodup_cons.mp different).1 (by simp [same])
      by_cases isFirst : id = first.1
      · have notSecond : id ≠ second.1 := by
          rw [isFirst]
          exact Ne.symm apart
        rw [lookup_cons_of_ne notSecond, lookup_cons_of_eq isFirst,
          lookup_cons_of_eq isFirst]
      · rw [lookup_cons_of_ne isFirst (second :: rest)]
        by_cases isSecond : id = second.1
        · rw [lookup_cons_of_eq isSecond, lookup_cons_of_eq isSecond]
        · rw [lookup_cons_of_ne isSecond, lookup_cons_of_ne isSecond,
            lookup_cons_of_ne isFirst]
  | trans first second firstHypothesis secondHypothesis =>
      have differentLater := (first.map Prod.fst).nodup_iff.mp different
      rw [firstHypothesis different, secondHypothesis differentLater]

theorem batchValue_self {group : GroupRow} {id : Int}
    (addressed : group.key = ⟨orderId, kitId, id⟩) (value : Int)
    (rest : RowBatch) :
    batchValue orderId kitId ((id, value) :: rest) group = some value := by
  simp only [GroupRow.key, GroupKey.mk.injEq] at addressed
  simp [batchValue, addressed]

theorem batchValue_of_ne {group : GroupRow} {id : Int}
    (other : group.key ≠ ⟨orderId, kitId, id⟩) (value : Int)
    (rest : RowBatch) :
    batchValue orderId kitId ((id, value) :: rest) group =
      batchValue orderId kitId rest group := by
  simp only [batchValue]
  split
  next sameKit =>
    apply lookup_cons_of_ne
    intro sameId
    apply other
    simp [GroupRow.key, sameKit, sameId]
  next =>
    rfl

theorem batchValue_eq_none {group : GroupRow} {id : Int}
    (addressed : group.key = ⟨orderId, kitId, id⟩) {rest : RowBatch}
    (missing : id ∉ rest.map Prod.fst) :
    batchValue orderId kitId rest group = none := by
  simp only [GroupRow.key, GroupKey.mk.injEq] at addressed
  simp only [batchValue, addressed, lookup_eq_none missing, ite_self]

/-! ## Batches with the same values -/

/-- The two batches ask the groups of the store for the same values. -/
def SameValues
    (db : Db) (orderId kitId : Int) (first second : RowBatch) : Prop :=
  ∀ group ∈ db.groups,
    batchValue orderId kitId first group =
      batchValue orderId kitId second group

section

variable {db : Db} {first second : RowBatch}
variable (same : SameValues db orderId kitId first second)

include same

theorem batchSum_congr (counted : Int → Int) (classId : Int) :
    batchSum counted db orderId kitId first classId =
      batchSum counted db orderId kitId second classId := by
  apply columnSum_congr
  intro group member
  simp only [batchWithdrawal, same group member]

theorem satisfiable_congr (satisfiable : Satisfiable db orderId kitId first) :
    Satisfiable db orderId kitId second := by
  intro group member addressed
  rw [← same group member] at addressed
  obtain ⟨row, rowMember, sameClass, enough⟩ :=
    satisfiable group member addressed
  rw [batchDemand, batchSum_congr same] at enough
  exact ⟨row, rowMember, sameClass, enough⟩

theorem settledStore_congr :
    settledStore db orderId kitId first =
      settledStore db orderId kitId second := by
  have sameClasses :
      settledClass db orderId kitId first =
        settledClass db orderId kitId second := by
    funext row
    simp only [settledClass, batchTotal, batchSum_congr same]
  have sameGroups :
      db.groups.map (settledGroup orderId kitId first) =
        db.groups.map (settledGroup orderId kitId second) := by
    apply List.map_congr_left
    intro group member
    simp only [settledGroup, same group member]
  simp only [settledStore, sameClasses, sameGroups]

end

/-! ## One request -/

theorem batchDemand_nonneg
    (db : Db) (batch : RowBatch) (classId : Int) :
    0 ≤ batchDemand db orderId kitId batch classId := by
  apply List.sum_nonneg
  intro demanded member
  obtain ⟨group, _, rfl⟩ := List.mem_map.mp member
  split <;> omega

section

variable {db : Db} (identified : db.GroupsIdentified)
variable {group : GroupRow} (present : group ∈ db.groups)
variable {id : Int} (addressed : group.key = ⟨orderId, kitId, id⟩)
variable {rest : RowBatch} (fresh : id ∉ rest.map Prod.fst)

include identified present addressed fresh

theorem batchSum_cons
    {counted : Int → Int} (zero : counted 0 = 0) (value classId : Int) :
    batchSum counted db orderId kitId ((id, value) :: rest) classId =
      batchSum counted db orderId kitId rest classId +
        (if group.classId = classId then counted (value - group.count)
          else 0) := by
  have elsewhere :
      ∀ other ∈ db.groups, other.key ≠ group.key →
        (if other.classId = classId then
            counted
              (batchWithdrawal orderId kitId ((id, value) :: rest) other)
          else 0) =
          if other.classId = classId then
            counted (batchWithdrawal orderId kitId rest other)
          else 0 := by
    intro other _ different
    rw [addressed] at different
    simp only [batchWithdrawal, batchValue_of_ne different]
  simp only [batchSum]
  rw [columnSum_eq_add_of_identifies identified present elsewhere]
  simp only [batchWithdrawal, batchValue_self addressed,
    batchValue_eq_none addressed fresh, zero]
  split <;> simp

/-- The first request of a satisfiable batch is accepted. -/
theorem accepts_of_satisfiable {value : Int}
    (satisfiable :
      Satisfiable db orderId kitId ((id, value) :: rest)) :
    db.Accepts ⟨orderId, kitId, id⟩ value := by
  have wanted :
      (batchValue orderId kitId ((id, value) :: rest) group).isSome := by
    rw [batchValue_self addressed]
    rfl
  obtain ⟨row, rowMember, sameClass, enough⟩ :=
    satisfiable group present wanted
  have nonneg := @batchDemand_nonneg orderId kitId db rest row.id
  rw [batchDemand,
    batchSum_cons identified present addressed fresh (by decide), sameClass,
    if_pos rfl] at enough
  rw [batchDemand, sameClass] at nonneg
  refine ⟨group, present, addressed, row, rowMember, sameClass, ?_⟩
  omega

end

/-- Whether and how the rest of the batch addresses a group does not depend on
the counts, and the group of the first request is not addressed again. -/
theorem batchWithdrawal_counted
    {id : Int} {rest : RowBatch} (fresh : id ∉ rest.map Prod.fst) (value : Int)
    (group : GroupRow) :
    batchWithdrawal orderId kitId rest
        (if group.key = ⟨orderId, kitId, id⟩ then
          { group with count := value } else group) =
      batchWithdrawal orderId kitId rest group := by
  split
  next addressed =>
    have again :
        GroupRow.key { group with count := value } =
          ⟨orderId, kitId, id⟩ := addressed
    simp only [batchWithdrawal, batchValue_eq_none addressed fresh,
      batchValue_eq_none again fresh]
  next =>
    rfl

section

variable {db : Db} (identified : db.GroupsIdentified)
variable {group : GroupRow} (present : group ∈ db.groups)
variable {id value : Int} (addressed : group.key = ⟨orderId, kitId, id⟩)
variable (accepted : db.Accepts ⟨orderId, kitId, id⟩ value)

include accepted in
theorem batchSum_withdraw
    {rest : RowBatch} (fresh : id ∉ rest.map Prod.fst) (counted : Int → Int)
    (classId : Int) :
    batchSum counted (withdraw db ⟨orderId, kitId, id⟩ value) orderId kitId
        rest classId =
      batchSum counted db orderId kitId rest classId := by
  rw [withdraw_of_accepts accepted]
  simp only [batchSum, Db.setCount, Db.takeStock, updateWhere]
  rw [columnSum_map]
  apply columnSum_congr
  intro other _
  rw [batchWithdrawal_counted fresh]
  split <;> rfl

include identified present addressed accepted in
/-- The class of the group loses what is withdrawn. -/
theorem takeFrom_of_accepts {row : ClassRow}
    (member : row ∈ db.classes.rows) :
    db.takeFrom ⟨orderId, kitId, id⟩ value row =
      { row with
        inventory :=
          row.inventory -
            (if group.classId = row.id then value - group.count else 0) } := by
  obtain ⟨other, otherPresent, sameKey, source, sourceMember, sameClass,
    enough⟩ := accepted
  have isGroup : other = group :=
    identified.eq_of_key_eq otherPresent present
      (sameKey.trans addressed.symm)
  rw [isGroup] at sameClass enough
  rw [← addressed, Db.takeFrom_of_identified identified present]
  by_cases ofClass : row.id = group.classId
  · have isSource : row = source :=
      db.classes.identifies.eq_of_key_eq member sourceMember
        (ofClass.trans sameClass.symm)
    rw [if_pos ⟨ofClass, isSource ▸ enough⟩, if_pos ofClass.symm]
  · rw [if_neg (fun joined => ofClass joined.1),
      if_neg (fun same => ofClass same.symm), sub_zero]

include identified present addressed accepted in
/-- An accepted request leaves enough for the rest of the batch. -/
theorem satisfiable_withdraw
    {rest : RowBatch} (fresh : id ∉ rest.map Prod.fst)
    (satisfiable :
      Satisfiable db orderId kitId ((id, value) :: rest)) :
    Satisfiable (withdraw db ⟨orderId, kitId, id⟩ value) orderId kitId
      rest := by
  intro counted countedMember wanted
  simp only [batchDemand]
  rw [withdraw_of_accepts accepted] at countedMember
  obtain ⟨source, sourceMember, changed⟩ := mem_updateWhere.mp countedMember
  have sameColumns :
      counted.classId = source.classId ∧
        batchValue orderId kitId rest counted =
          batchValue orderId kitId rest source := by
    rw [← changed]
    split <;> exact ⟨rfl, rfl⟩
  have sourceWanted :
      (batchValue orderId kitId ((id, value) :: rest) source).isSome := by
    by_cases isFirst : source.key = ⟨orderId, kitId, id⟩
    · rw [batchValue_self isFirst]
      rfl
    · rw [batchValue_of_ne isFirst, ← sameColumns.2]
      exact wanted
  obtain ⟨row, rowMember, sameClass, enough⟩ :=
    satisfiable source sourceMember sourceWanted
  refine
    ⟨db.takeFrom ⟨orderId, kitId, id⟩ value row, ?_, ?_, ?_⟩
  · rw [withdraw_of_accepts accepted]
    exact List.mem_map_of_mem rowMember
  · rw [db.takeFrom_id, sameClass, sameColumns.1]
  · rw [batchSum_withdraw accepted fresh,
      takeFrom_of_accepts identified present addressed accepted rowMember]
    rw [batchDemand,
      batchSum_cons identified present addressed fresh (by decide)] at enough
    dsimp only
    split at enough
    next sameRow => rw [if_pos sameRow]; omega
    next otherRow => rw [if_neg otherRow]; omega

include identified present addressed accepted in
/-- The rest of the batch settles the store that the first request leaves as
the whole batch settles the store before. -/
theorem settledStore_withdraw
    {rest : RowBatch} (fresh : id ∉ rest.map Prod.fst) :
    settledStore (withdraw db ⟨orderId, kitId, id⟩ value) orderId kitId rest =
      settledStore db orderId kitId ((id, value) :: rest) := by
  have totals := batchSum_withdraw accepted fresh (fun items => items)
  rw [withdraw_of_accepts accepted] at totals ⊢
  have sameGroups :
      ((db.takeStock ⟨orderId, kitId, id⟩ value).setCount
            ⟨orderId, kitId, id⟩ value).groups.map
          (settledGroup orderId kitId rest) =
        db.groups.map (settledGroup orderId kitId ((id, value) :: rest)) := by
    simp only [Db.setCount, Db.takeStock, updateWhere, List.map_map]
    apply List.map_congr_left
    intro other _
    simp only [Function.comp_apply]
    split
    next isFirst =>
      have again :
          GroupRow.key { other with count := value } =
            ⟨orderId, kitId, id⟩ := isFirst
      simp only [settledGroup, batchValue_self isFirst,
        batchValue_eq_none again fresh]
    next notFirst =>
      simp only [settledGroup, batchValue_of_ne notFirst]
  have sameClasses :
      ((db.takeStock ⟨orderId, kitId, id⟩ value).setCount
            ⟨orderId, kitId, id⟩ value).classes.update
          (settledClass
            ((db.takeStock ⟨orderId, kitId, id⟩ value).setCount
              ⟨orderId, kitId, id⟩ value) orderId kitId rest)
          (settledClass_id _ orderId kitId rest) =
        db.classes.update
          (settledClass db orderId kitId ((id, value) :: rest))
          (settledClass_id db orderId kitId ((id, value) :: rest)) := by
    apply SerialTable.ext_rows
    · simp only [Db.setCount, Db.takeStock, SerialTable.rows_update,
        List.map_map]
      apply List.map_congr_left
      intro row member
      simp only [Function.comp_apply, settledClass]
      rw [takeFrom_of_accepts identified present addressed accepted member]
      simp only [batchTotal]
      rw [batchSum_cons identified present addressed fresh rfl]
      have total := totals row.id
      simp only [Db.setCount, Db.takeStock] at total
      simp only [total]
      congr 1
      omega
    · rfl
  simp only [settledStore]
  rw [sameClasses, sameGroups]
  rfl

end

theorem settledStore_nil (db : Db) :
    settledStore db orderId kitId [] = db := by
  have noValue : ∀ group, batchValue orderId kitId [] group = none := by
    intro group
    simp only [batchValue, List.lookup_nil, ite_self]
  have noTotal : ∀ classId, batchTotal db orderId kitId [] classId = 0 := by
    intro classId
    apply columnSum_eq_zero
    intro group _
    simp only [batchWithdrawal, noValue, ite_self]
  have sameClass : settledClass db orderId kitId [] = id := by
    funext row
    simp only [settledClass, noTotal, sub_zero, id]
  have sameGroup : settledGroup orderId kitId [] = id := by
    funext group
    simp only [settledGroup, noValue, id]
  have sameClasses :
      db.classes.update (settledClass db orderId kitId [])
          (settledClass_id db orderId kitId []) =
        db.classes := by
    apply SerialTable.ext_rows
    · rw [SerialTable.rows_update, sameClass, List.map_id]
    · rfl
  simp only [settledStore, sameClasses, sameGroup, List.map_id]

/-- A batch that is satisfiable is accepted and settles the store. -/
theorem runBatch_settles
    {db : Db} {batch : RowBatch} (identified : db.GroupsIdentified)
    (different : (batch.map Prod.fst).Nodup)
    (satisfiable : Satisfiable db orderId kitId batch) :
    EveryStep
        (fun current request => applyRequest current orderId kitId request)
        (AcceptedIfPresent orderId kitId) db batch.requests ∧
      runActions
          (fun current request => applyRequest current orderId kitId request)
          db batch.requests =
        settledStore db orderId kitId batch := by
  induction batch generalizing db with
  | nil =>
      exact ⟨trivial, (settledStore_nil db).symm⟩
  | cons wish rest inductionHypothesis =>
      obtain ⟨id, value⟩ := wish
      obtain ⟨fresh, restDifferent⟩ := List.nodup_cons.mp different
      by_cases existing :
          ∃ group ∈ db.groups, group.key = ⟨orderId, kitId, id⟩
      · obtain ⟨group, present, addressed⟩ := existing
        have accepted :=
          accepts_of_satisfiable identified present addressed fresh
            satisfiable
        have identifiedLater :
            (withdraw db ⟨orderId, kitId, id⟩ value).GroupsIdentified := by
          apply Db.groupsIdentified_of_fixed _ identified
          rw [withdraw_fixed]
        obtain ⟨acceptedLater, settledLater⟩ :=
          inductionHypothesis identifiedLater restDifferent
            (satisfiable_withdraw identified present addressed accepted fresh
              satisfiable)
        refine ⟨⟨fun _ => accepted, acceptedLater⟩, ?_⟩
        rw [← settledStore_withdraw identified present addressed accepted
          fresh]
        exact settledLater
      · have refused : ¬ db.Accepts ⟨orderId, kitId, id⟩ value := by
          rintro ⟨group, present, addressed, _⟩
          exact existing ⟨group, present, addressed⟩
        have unchanged :
            applyRequest db orderId kitId (.row id value false) = db :=
          withdraw_of_not_accepts refused
        have same :
            SameValues db orderId kitId ((id, value) :: rest) rest := by
          intro group member
          apply batchValue_of_ne
          exact fun addressed => existing ⟨group, member, addressed⟩
        obtain ⟨acceptedLater, settledLater⟩ :=
          inductionHypothesis identified restDifferent
            (satisfiable_congr same satisfiable)
        refine ⟨⟨fun present => absurd present existing, ?_⟩, ?_⟩
        · dsimp only
          rw [unchanged]
          exact acceptedLater
        · rw [settledStore_congr same, ← settledLater]
          exact congrArg
            (fun start =>
              runActions
                (fun current request =>
                  applyRequest current orderId kitId request)
                start (RowBatch.requests rest))
            unchanged

end

/-- In any order, a satisfiable batch is accepted and leads to the same
store. -/
theorem satisfiable_batch_settles
    (server : Server) (db : Db) (orderId kitId : Int) (batch order : RowBatch)
    (identified : db.GroupsIdentified)
    (different : (batch.map Prod.fst).Nodup)
    (satisfiable : Satisfiable db orderId kitId batch)
    (reordered : order.Perm batch) :
    EveryStep
        (fun current request =>
          (processRequest orderId kitId request).exec (perform server) current)
        (AcceptedIfPresent orderId kitId) db order.requests ∧
      (requestsLoop orderId kitId order.requests).exec (perform server) db =
        settledStore db orderId kitId batch := by
  have orderDifferent : (order.map Prod.fst).Nodup :=
    (reordered.map Prod.fst).nodup_iff.mpr different
  have same : SameValues db orderId kitId order batch := by
    intro group _
    simp only [batchValue, lookup_of_perm reordered orderDifferent]
  have sameBack : SameValues db orderId kitId batch order :=
    fun group member => (same group member).symm
  obtain ⟨accepted, settled⟩ :=
    runBatch_settles identified orderDifferent
      (satisfiable_congr sameBack satisfiable)
  constructor
  · simp only [exec_processRequest]
    exact accepted
  · rw [exec_requestsLoop, settled, settledStore_congr same]

/-- Both groups of bolts and a missing one, in another order. -/
theorem satisfiable_batch_settles_bolts :
    EveryStep
        (fun current request =>
          (processRequest 1 0 request).exec (perform Server.plain) current)
        (AcceptedIfPresent 1 0) Db.bolts
        (RowBatch.requests [(9, 1), (1, 6), (0, 4)]) ∧
      (requestsLoop 1 0 (RowBatch.requests [(9, 1), (1, 6), (0, 4)])).exec
          (perform Server.plain) Db.bolts =
        settledStore Db.bolts 1 0 [(0, 4), (9, 1), (1, 6)] :=
  satisfiable_batch_settles Server.plain Db.bolts 1 0
    [(0, 4), (9, 1), (1, 6)] [(9, 1), (1, 6), (0, 4)]
    (by decide : (Db.bolts.groups.map GroupRow.key).Nodup) (by decide)
    (by
      intro group member _
      refine ⟨_, List.mem_cons_self .., ?_, by decide⟩
      revert member group
      decide)
    (by decide)

end LtlsKitting.Sync
