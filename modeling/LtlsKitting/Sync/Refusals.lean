import LtlsKitting.Store.Tags
import LtlsKitting.Sync.Batches

/-!
# What refused requests leave

A request whose withdrawal is refused does not change the stock or a count.
The tag statement has its own condition: if the request asks for a tag, a
group that was complete before gets one.

A batch of row requests that need not be satisfiable is processed in order.
Each of its groups either gets the value it asks for or is refused, and a
refused group asks for more items than are in stock at its turn.  If no
request of the batch returns items, the stock only falls, so that a refused
request is still out of reach in the end.
-/

namespace LtlsKitting.Sync

open LtlsKitting.Php LtlsKitting.Store LtlsKitting.Interaction
open LtlsKitting.Relational

/-! ## One refused request -/

/-- The store after a request whose take statement affects no row: a complete
group is labelled if the request asks for it, and nothing else happens. -/
theorem applyRequest_of_refused {db : Db} {orderId kitId id value : Int}
    (refused : db.takeAffected ⟨orderId, kitId, id⟩ value = 0)
    (tag : Bool) :
    applyRequest db orderId kitId (.row id value tag) =
      label db ⟨orderId, kitId, id⟩ tag := by
  have notAccepted : ¬ db.Accepts ⟨orderId, kitId, id⟩ value := by
    rw [← db.accepts_iff_affected, refused]
    exact Nat.lt_irrefl 0
  rw [applyRequest, withdraw_of_not_accepts notAccepted]

/-- Giving a free tag to a group leaves the store as it is only if there is
nothing to give and nothing to take away. -/
theorem setTag_freeTag_eq_self_iff (db : Db) (key : GroupKey) :
    db.setTag key db.freeTag = db ↔
      ∀ group ∈ db.groups, group.key = key → group.count = group.target →
        group.tagId = none ∧ db.freeTag = none := by
  have sameTable :
      db.setTag key db.freeTag = db ↔
        (db.setTag key db.freeTag).groups = db.groups := by
    constructor
    · exact congrArg Db.groups
    · intro same
      simp only [Db.setTag] at same ⊢
      rw [same]
  rw [sameTable, Db.setTag, updateWhere_eq_self_iff]
  constructor
  · intro same group member sameKey complete
    have carried : db.freeTag = group.tagId :=
      congrArg GroupRow.tagId (same group member ⟨sameKey, complete⟩)
    cases free : db.freeTag with
    | none =>
        exact ⟨carried.symm.trans free, rfl⟩
    | some tag =>
        have unused := (Db.freeTag_spec free).2 group member
        exact absurd (carried.symm.trans free) unused
  · rintro nothing group member ⟨sameKey, complete⟩
    obtain ⟨untagged, noneFree⟩ := nothing group member sameKey complete
    rw [noneFree, ← untagged]

/-- A refused request only labels: if it asks for a tag, the complete groups
of its key get the free tag, and the store is the same in all other respects.
It is wholly unchanged exactly if no tag is asked for, or no complete group is
addressed, or there is neither a free tag nor one to be taken away. -/
theorem refused_request_only_labels
    (server : Server) (db : Db) (orderId kitId id value : Int) (tag : Bool)
    (refused : db.takeAffected ⟨orderId, kitId, id⟩ value = 0) :
    (processRequest orderId kitId (.row id value tag)).exec
          (perform server) db =
        { db with
          groups :=
            updateWhere
              (fun group =>
                tag = true ∧ group.key = ⟨orderId, kitId, id⟩ ∧
                  group.count = group.target)
              (fun group => { group with tagId := db.freeTag }) db.groups } ∧
      ((processRequest orderId kitId (.row id value tag)).exec
            (perform server) db = db ↔
        (tag = true →
          ∀ group ∈ db.groups, group.key = ⟨orderId, kitId, id⟩ →
            group.count = group.target →
              group.tagId = none ∧ db.freeTag = none)) := by
  rw [exec_processRequest, applyRequest_of_refused refused]
  cases tag with
  | false =>
      have kept :
          updateWhere
              (fun group : GroupRow =>
                false = true ∧ group.key = ⟨orderId, kitId, id⟩ ∧
                  group.count = group.target)
              (fun group => { group with tagId := db.freeTag }) db.groups =
            db.groups :=
        updateWhere_eq_self (fun group _ asked => Bool.noConfusion asked.1)
      rw [kept]
      exact ⟨rfl, iff_of_true rfl (fun asked => Bool.noConfusion asked)⟩
  | true =>
      constructor
      · simp only [label, if_true, Db.setTag, true_and]
      · simp only [label, if_true, true_implies]
        exact setTag_freeTag_eq_self_iff db ⟨orderId, kitId, id⟩

/-- Twenty bolts are out of reach of a complete group, which keeps its five
bolts and is labelled. -/
theorem refused_request_only_labels_bolts :
    (Db.bolts.setCount ⟨1, 0, 0⟩ 5).takeAffected ⟨1, 0, 0⟩ 20 = 0 ∧
      (processRequest 1 0 (.row 0 20 true)).exec (perform Server.plain)
          (Db.bolts.setCount ⟨1, 0, 0⟩ 5) =
        { Db.bolts.setCount ⟨1, 0, 0⟩ 5 with
          groups :=
            updateWhere
              (fun group =>
                true = true ∧ group.key = ⟨1, 0, 0⟩ ∧
                  group.count = group.target)
              (fun group =>
                { group with
                  tagId := (Db.bolts.setCount ⟨1, 0, 0⟩ 5).freeTag })
              (Db.bolts.setCount ⟨1, 0, 0⟩ 5).groups } :=
  ⟨by decide,
    (refused_request_only_labels Server.plain (Db.bolts.setCount ⟨1, 0, 0⟩ 5)
      1 0 0 20 true (by decide)).1⟩

/-- A refused request need not leave the tags as they are. -/
theorem not_refused_request_unchanged :
    ¬ ∀ (server : Server) (db : Db) (orderId kitId id value : Int)
        (tag : Bool),
        db.takeAffected ⟨orderId, kitId, id⟩ value = 0 →
          (processRequest orderId kitId (.row id value tag)).exec
            (perform server) db = db := by
  intro unchanged
  have refused :
      (Db.bolts.setCount ⟨1, 0, 0⟩ 5).takeAffected ⟨1, 0, 0⟩ 20 = 0 := by
    decide
  have same :=
    congrArg Db.groups
      (unchanged Server.plain (Db.bolts.setCount ⟨1, 0, 0⟩ 5) 1 0 0 20 true
        refused)
  revert same
  decide

/-! ## Batches -/

/-- Every group names an existing class. -/
def ClassesKnown (db : Db) : Prop :=
  ∀ group ∈ db.groups, ∃ row ∈ db.classes.rows, row.id = group.classId

/-- No request of the batch returns items. -/
def Rising (db : Db) (orderId kitId : Int) (batch : RowBatch) : Prop :=
  ∀ group ∈ db.groups, ∀ value,
    batchValue orderId kitId batch group = some value → group.count ≤ value

/-- The group after the batch, compared with the group before. -/
structure GroupOutcome
    (db : Db) (orderId kitId : Int) (batch : RowBatch) (after : Db)
    (source group : GroupRow) : Prop where
  unasked : batchValue orderId kitId batch source = none → group = source
  asked :
    ∀ value, batchValue orderId kitId batch source = some value →
      group = { source with count := value } ∨
        group = source ∧ source.count < value ∧
          (Rising db orderId kitId batch →
            after.inventory source.classId < value - source.count)

/-- The store after the batch, compared with the store before. -/
structure BatchOutcome
    (db : Db) (orderId kitId : Int) (batch : RowBatch) (after : Db) :
    Prop where
  groups :
    ∀ group ∈ after.groups, ∃ source ∈ db.groups,
      GroupOutcome db orderId kitId batch after source group
  falling :
    Rising db orderId kitId batch →
      ∀ classId, after.inventory classId ≤ db.inventory classId

section

variable {db : Db} {orderId kitId : Int}

theorem ClassesKnown.withdraw
    (known : ClassesKnown db) (key : GroupKey) (value : Int) :
    ClassesKnown (Sync.withdraw db key value) := by
  have classIds :
      (Sync.withdraw db key value).classes.rows.map ClassRow.id =
        db.classes.rows.map ClassRow.id := by
    have taken :
        (db.takeStock key value).classes.rows.map ClassRow.id =
          db.classes.rows.map ClassRow.id := by
      simp only [Db.takeStock, SerialTable.rows_update, List.map_map]
      apply List.map_congr_left
      intro row _
      exact db.takeFrom_id key value row
    simp only [Sync.withdraw]
    split
    · exact taken
    · exact taken
  intro group member
  obtain ⟨source, sourceMember, sameFixed⟩ :
      ∃ source ∈ db.groups, source.fixed = group.fixed := by
    have column : group.fixed ∈ db.groups.map GroupRow.fixed := by
      rw [← withdraw_fixed db key value]
      exact List.mem_map_of_mem member
    exact List.mem_map.mp column
  obtain ⟨row, rowMember, sameClass⟩ := known source sourceMember
  have column :
      row.id ∈ (Sync.withdraw db key value).classes.rows.map ClassRow.id := by
    rw [classIds]
    exact List.mem_map_of_mem rowMember
  obtain ⟨taken, takenMember, sameId⟩ := List.mem_map.mp column
  have sameColumn : source.classId = group.classId :=
    congrArg (fun columns => columns.2.2.1) sameFixed
  exact ⟨taken, takenMember, by rw [sameId, sameClass, sameColumn]⟩

theorem groupsIdentified_withdraw
    (identified : db.GroupsIdentified) (key : GroupKey) (value : Int) :
    (withdraw db key value).GroupsIdentified :=
  Db.groupsIdentified_of_fixed (withdraw_fixed db key value).symm identified

/-- A request for an existing group is accepted if its class has enough
items. -/
theorem accepts_iff_inventory
    (identified : db.GroupsIdentified) (known : ClassesKnown db)
    {group : GroupRow} (present : group ∈ db.groups) (value : Int) :
    db.Accepts group.key value ↔
      value - group.count ≤ db.inventory group.classId := by
  constructor
  · rintro ⟨other, otherPresent, sameKey, row, rowMember, sameClass, enough⟩
    have isGroup : other = group :=
      identified.eq_of_key_eq otherPresent present sameKey
    rw [isGroup] at sameClass enough
    rw [← sameClass, Db.inventory_eq rowMember]
    exact enough
  · intro enough
    obtain ⟨row, rowMember, sameClass⟩ := known group present
    rw [← sameClass, Db.inventory_eq rowMember] at enough
    exact ⟨group, present, rfl, row, rowMember, sameClass, enough⟩

theorem inventory_withdraw
    (identified : db.GroupsIdentified) {group : GroupRow}
    (present : group ∈ db.groups) {value : Int}
    (accepted : db.Accepts group.key value) (classId : Int) :
    (withdraw db group.key value).inventory classId =
      db.inventory classId -
        (if group.classId = classId then value - group.count else 0) := by
  rw [withdraw_of_accepts accepted, Db.inventory_setCount]
  obtain ⟨other, otherPresent, sameKey, row, rowMember, sameClass, enough⟩ :=
    accepted
  have isGroup : other = group :=
    identified.eq_of_key_eq otherPresent present sameKey
  rw [isGroup] at sameClass enough
  exact
    Db.inventory_takeStock identified present rowMember sameClass enough
      classId

theorem mem_groups_withdraw
    {key : GroupKey} {value : Int} (accepted : db.Accepts key value)
    {group : GroupRow} (member : group ∈ (withdraw db key value).groups) :
    ∃ source ∈ db.groups,
      (source.key = key → group = { source with count := value }) ∧
        (source.key ≠ key → group = source) := by
  rw [withdraw_of_accepts accepted] at member
  obtain ⟨source, sourceMember, changed⟩ := mem_updateWhere.mp member
  refine ⟨source, sourceMember, ?_, ?_⟩
  · intro addressed
    rw [← changed, if_pos addressed]
  · intro other
    rw [← changed, if_neg other]

/-- If the rest of a batch does not return items, neither did it before the
first request was accepted. -/
theorem Rising.withdraw
    {id value : Int} {rest : RowBatch} (fresh : id ∉ rest.map Prod.fst)
    (rising : Rising db orderId kitId ((id, value) :: rest))
    (accepted : db.Accepts ⟨orderId, kitId, id⟩ value) :
    Rising (Sync.withdraw db ⟨orderId, kitId, id⟩ value) orderId kitId
      rest := by
  intro group member asked wanted
  obtain ⟨source, sourceMember, changed, unchanged⟩ :=
    mem_groups_withdraw accepted member
  by_cases addressed : source.key = ⟨orderId, kitId, id⟩
  · have isChanged := changed addressed
    have again : group.key = ⟨orderId, kitId, id⟩ := by
      rw [isChanged]
      exact addressed
    rw [batchValue_eq_none again fresh] at wanted
    cases wanted
  · rw [unchanged addressed] at wanted ⊢
    exact
      rising source sourceMember asked
        ((batchValue_of_ne addressed value rest).trans wanted)

/-- The outcome of the rest of a batch after its first request was
accepted. -/
theorem BatchOutcome.of_accepted
    {group : GroupRow} {id value : Int} {rest : RowBatch} {after : Db}
    (identified : db.GroupsIdentified) (present : group ∈ db.groups)
    (addressed : group.key = ⟨orderId, kitId, id⟩)
    (fresh : id ∉ rest.map Prod.fst)
    (accepted : db.Accepts ⟨orderId, kitId, id⟩ value)
    (outcome :
      BatchOutcome (withdraw db ⟨orderId, kitId, id⟩ value) orderId kitId rest
        after) :
    BatchOutcome db orderId kitId ((id, value) :: rest) after := by
  constructor
  · intro final member
    obtain ⟨middle, middleMember, later⟩ := outcome.groups final member
    obtain ⟨source, sourceMember, changed, unchanged⟩ :=
      mem_groups_withdraw accepted middleMember
    refine ⟨source, sourceMember, ?_⟩
    by_cases isFirst : source.key = ⟨orderId, kitId, id⟩
    · have isChanged := changed isFirst
      have again : middle.key = ⟨orderId, kitId, id⟩ := by
        rw [isChanged]
        exact isFirst
      have isMiddle := later.unasked (batchValue_eq_none again fresh)
      have wanted := batchValue_self isFirst value rest
      constructor
      · intro unasked
        rw [wanted] at unasked
        cases unasked
      · intro asked sameWish
        rw [wanted, Option.some.injEq] at sameWish
        rw [isMiddle, isChanged, sameWish]
        exact Or.inl rfl
    · have wanted := batchValue_of_ne isFirst value rest
      rw [unchanged isFirst] at later
      constructor
      · intro unasked
        exact later.unasked (wanted.symm.trans unasked)
      · intro asked sameWish
        rcases later.asked asked (wanted.symm.trans sameWish) with
          taken | ⟨refused, more, unreachable⟩
        · exact Or.inl taken
        · exact
            Or.inr
              ⟨refused, more,
                fun rising => unreachable (rising.withdraw fresh accepted)⟩
  · intro rising classId
    have fallen := outcome.falling (rising.withdraw fresh accepted) classId
    have raised :=
      rising group present value (batchValue_self addressed value rest)
    rw [← addressed] at accepted fallen
    rw [inventory_withdraw identified present accepted] at fallen
    split at fallen <;> omega

/-- The outcome of the rest of a batch after its first request was refused
or addressed no group. -/
theorem BatchOutcome.of_refused
    {id value : Int} {rest : RowBatch} {after : Db}
    (nonneg : db.NonnegInventories)
    (identified : db.GroupsIdentified) (known : ClassesKnown db)
    (fresh : id ∉ rest.map Prod.fst)
    (refused : ¬ db.Accepts ⟨orderId, kitId, id⟩ value)
    (outcome : BatchOutcome db orderId kitId rest after) :
    BatchOutcome db orderId kitId ((id, value) :: rest) after := by
  have risingLater :
      Rising db orderId kitId ((id, value) :: rest) →
        Rising db orderId kitId rest := by
    intro rising group member asked wanted
    by_cases isFirst : group.key = ⟨orderId, kitId, id⟩
    · rw [batchValue_eq_none isFirst fresh] at wanted
      cases wanted
    · exact
        rising group member asked
          ((batchValue_of_ne isFirst value rest).trans wanted)
  constructor
  · intro final member
    obtain ⟨source, sourceMember, later⟩ := outcome.groups final member
    refine ⟨source, sourceMember, ?_⟩
    by_cases isFirst : source.key = ⟨orderId, kitId, id⟩
    · have isSource := later.unasked (batchValue_eq_none isFirst fresh)
      have wanted := batchValue_self isFirst value rest
      have tooFew : db.inventory source.classId < value - source.count := by
        rw [← isFirst, accepts_iff_inventory identified known sourceMember]
          at refused
        omega
      have stocked : 0 ≤ db.inventory source.classId := by
        obtain ⟨row, rowMember, sameClass⟩ := known source sourceMember
        rw [← sameClass, Db.inventory_eq rowMember]
        exact nonneg row rowMember
      constructor
      · intro unasked
        rw [wanted] at unasked
        cases unasked
      · intro asked sameWish
        rw [wanted, Option.some.injEq] at sameWish
        rw [← sameWish]
        refine Or.inr ⟨isSource, by omega, ?_⟩
        intro rising
        have fallen := outcome.falling (risingLater rising) source.classId
        omega
    · have wanted := batchValue_of_ne isFirst value rest
      constructor
      · intro unasked
        exact later.unasked (wanted.symm.trans unasked)
      · intro asked sameWish
        rcases later.asked asked (wanted.symm.trans sameWish) with
          taken | ⟨sameGroup, more, unreachable⟩
        · exact Or.inl taken
        · exact
            Or.inr
              ⟨sameGroup, more, fun rising => unreachable (risingLater rising)⟩
  · exact fun rising => outcome.falling (risingLater rising)

end

/-- The store after the requests of a batch. -/
def runBatch (db : Db) (orderId kitId : Int) (batch : RowBatch) : Db :=
  runActions (fun current request => applyRequest current orderId kitId request)
    db batch.requests

/-- What is kept by the requests of a batch. -/
structure StoreKept (db after : Db) : Prop where
  nonneg : after.NonnegInventories
  identified : after.GroupsIdentified
  known : ClassesKnown after
  fixed :
    after.groups.map GroupRow.fixed = db.groups.map GroupRow.fixed

/-- Every batch has an outcome. -/
theorem runBatch_outcome
    {db : Db} (orderId kitId : Int) {batch : RowBatch}
    (nonneg : db.NonnegInventories) (identified : db.GroupsIdentified)
    (known : ClassesKnown db) (different : (batch.map Prod.fst).Nodup) :
    BatchOutcome db orderId kitId batch (runBatch db orderId kitId batch) ∧
      StoreKept db (runBatch db orderId kitId batch) := by
  induction batch generalizing db with
  | nil =>
      have noValue : ∀ group, batchValue orderId kitId [] group = none := by
        intro group
        simp only [batchValue, List.lookup_nil, ite_self]
      refine ⟨⟨?_, ?_⟩, nonneg, identified, known, rfl⟩
      · intro group member
        refine ⟨group, member, fun _ => rfl, ?_⟩
        intro value wanted
        rw [noValue] at wanted
        cases wanted
      · exact fun _ classId => Int.le_refl _
  | cons wish rest inductionHypothesis =>
      obtain ⟨id, value⟩ := wish
      obtain ⟨fresh, restDifferent⟩ := List.nodup_cons.mp different
      have first :
          runBatch db orderId kitId ((id, value) :: rest) =
            runBatch (withdraw db ⟨orderId, kitId, id⟩ value) orderId kitId
              rest := rfl
      rw [first]
      obtain ⟨outcome, kept⟩ :=
        inductionHypothesis
          (withdraw_nonneg nonneg ⟨orderId, kitId, id⟩ value)
          (groupsIdentified_withdraw identified _ value)
          (known.withdraw _ value) restDifferent
      have keptFirst :=
        kept.fixed.trans (withdraw_fixed db ⟨orderId, kitId, id⟩ value)
      refine ⟨?_, kept.nonneg, kept.identified, kept.known, keptFirst⟩
      by_cases accepted : db.Accepts ⟨orderId, kitId, id⟩ value
      · have taken := accepted
        obtain ⟨group, present, addressed, _⟩ := taken
        exact
          outcome.of_accepted identified present addressed fresh accepted
      · rw [withdraw_of_not_accepts accepted] at outcome ⊢
        exact outcome.of_refused nonneg identified known fresh accepted

/-! ## Batches that ask for what is there -/

/-- A request for the count that the group has changes nothing. -/
theorem withdraw_of_same
    {db : Db} (identified : db.GroupsIdentified) {group : GroupRow}
    (present : group ∈ db.groups) :
    withdraw db group.key group.count = db := by
  by_cases accepted : db.Accepts group.key group.count
  · have sameClasses :
        db.classes.update (db.takeFrom group.key group.count)
            (db.takeFrom_id group.key group.count) =
          db.classes := by
      apply SerialTable.ext_rows
      · rw [SerialTable.rows_update]
        conv_rhs => rw [← List.map_id db.classes.rows]
        apply List.map_congr_left
        intro row member
        refine
          (takeFrom_of_accepts identified present rfl accepted member).trans ?_
        simp only [sub_self, ite_self, sub_zero, id]
      · rfl
    have sameGroups :
        updateWhere (fun row => row.key = group.key)
            (fun row => { row with count := group.count }) db.groups =
          db.groups := by
      simp only [updateWhere]
      conv_rhs => rw [← List.map_id db.groups]
      apply List.map_congr_left
      intro row member
      split
      next sameKey =>
        rw [identified.eq_of_key_eq member present sameKey]
        rfl
      next =>
        rfl
    rw [withdraw_of_accepts accepted]
    simp only [Db.takeStock, Db.setCount, sameClasses, sameGroups]
  · exact withdraw_of_not_accepts accepted

theorem runBatch_of_same
    {db : Db} {orderId kitId : Int} {batch : RowBatch}
    (identified : db.GroupsIdentified)
    (different : (batch.map Prod.fst).Nodup)
    (same :
      ∀ group ∈ db.groups, ∀ value,
        batchValue orderId kitId batch group = some value →
          value = group.count) :
    runBatch db orderId kitId batch = db := by
  induction batch with
  | nil =>
      rfl
  | cons wish rest inductionHypothesis =>
      obtain ⟨id, value⟩ := wish
      obtain ⟨fresh, restDifferent⟩ := List.nodup_cons.mp different
      have first : withdraw db ⟨orderId, kitId, id⟩ value = db := by
        by_cases accepted : db.Accepts ⟨orderId, kitId, id⟩ value
        · obtain ⟨group, present, addressed, _⟩ := accepted
          have sameCount :=
            same group present value (batchValue_self addressed value rest)
          rw [← addressed, sameCount]
          exact withdraw_of_same identified present
        · exact withdraw_of_not_accepts accepted
      have later :
          ∀ group ∈ db.groups, ∀ asked,
            batchValue orderId kitId rest group = some asked →
              asked = group.count := by
        intro group member asked wanted
        by_cases isFirst : group.key = ⟨orderId, kitId, id⟩
        · rw [batchValue_eq_none isFirst fresh] at wanted
          cases wanted
        · exact
            same group member asked
              ((batchValue_of_ne isFirst value rest).trans wanted)
      change
        runBatch (withdraw db ⟨orderId, kitId, id⟩ value) orderId kitId rest =
          db
      rw [first]
      exact inductionHypothesis restDifferent later

end LtlsKitting.Sync
