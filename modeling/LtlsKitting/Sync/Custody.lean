import LtlsKitting.Depot.Holdings
import LtlsKitting.Sync.Refusals

/-!
# The store as a depot

The classes are the kinds of goods, the groups are the places, and the tags
are the labels.  A document of a kit page is an order for its group, and one
more if it asks for a tag.  What the statements of the server do with it is
what a depot does with these orders.
-/

namespace LtlsKitting.Sync

open LtlsKitting.Php LtlsKitting.Store LtlsKitting.Interaction
open LtlsKitting.Relational LtlsKitting.Depot

/-- The orders that a document stands for. -/
def SyncRequest.orders (orderId kitId : Int) :
    SyncRequest → List (Order GroupKey Int)
  | .row id value tag =>
      .move ⟨orderId, kitId, id⟩ value ::
        if tag then [.mark ⟨orderId, kitId, id⟩] else []
  | .status _ => []

end LtlsKitting.Sync

namespace LtlsKitting.Store.Db

open LtlsKitting.Php LtlsKitting.Relational LtlsKitting.Depot

/-- The first group of a key. -/
def group (db : Db) (key : GroupKey) : Option GroupRow :=
  db.groups.find? (fun row => row.key = key)

/-- The groups with their classes and targets. -/
def plan (db : Db) : Plan Int GroupKey Int where
  places := (db.groups.map GroupRow.key).toFinset
  kind key := ((db.group key).map GroupRow.classId).getD 0
  target key := ((db.group key).map GroupRow.target).getD 0

/-- The inventories, and what the groups hold and carry. -/
def holdings (db : Db) : Holdings Int GroupKey Bytes Int where
  stock := db.inventory
  amount key := ((db.group key).map GroupRow.count).getD 0
  label key := (db.group key).bind GroupRow.tagId

/-- The tags of the database. -/
def labels (db : Db) : Set Bytes :=
  {tag | tag ∈ db.tags}

section

variable {db : Db} {key : GroupKey}

theorem mem_places : key ∈ db.plan.places ↔ ∃ row ∈ db.groups, row.key = key := by
  simp [plan]

theorem group_of_mem
    (identified : db.GroupsIdentified) {row : GroupRow}
    (member : row ∈ db.groups) : db.group row.key = some row := by
  cases found : db.group row.key with
  | none =>
      have missing := List.find?_eq_none.mp found row member
      simp at missing
  | some other =>
      have sameKey : other.key = row.key := by
        simpa using List.find?_some found
      rw [identified.eq_of_key_eq (List.mem_of_find?_eq_some found) member
        sameKey]

theorem group_eq_some {row : GroupRow} (found : db.group key = some row) :
    row ∈ db.groups ∧ row.key = key :=
  ⟨List.mem_of_find?_eq_some found, by simpa using List.find?_some found⟩

theorem group_setCount (db : Db) (key other : GroupKey) (value : Int) :
    (db.setCount key value).group other =
      (db.group other).map
        (fun row => if row.key = key then { row with count := value } else row) :=
  @find?_updateWhere GroupRow GroupKey (fun row => row.key = key) _
    (fun row => { row with count := value }) db.groups _ GroupRow.key
    (fun _ _ => rfl) other

theorem group_setTag
    (db : Db) (key other : GroupKey) (tag : Option Bytes) :
    (db.setTag key tag).group other =
      (db.group other).map
        (fun row =>
          if row.key = key ∧ row.count = row.target then
            { row with tagId := tag }
          else row) :=
  @find?_updateWhere GroupRow GroupKey (fun row => row.key = key ∧ row.count = row.target) _
    (fun row => { row with tagId := tag }) db.groups _ GroupRow.key
    (fun _ _ => rfl) other

theorem inventory_nonneg
    (solvent : db.NonnegInventories) (classId : Int) :
    0 ≤ db.inventory classId := by
  apply List.sum_nonneg
  intro summand member
  obtain ⟨row, rowMember, rfl⟩ := List.mem_map.mp member
  split
  · exact solvent row rowMember
  · exact Int.le_refl 0

/-- No inventory is negative, the tags of the groups are those of the
database, and no tag is at two groups. -/
structure InOrder (db : Db) : Prop where
  solvent : db.NonnegInventories
  listed :
    ∀ row ∈ db.groups, ∀ tag, row.tagId = some tag → tag ∈ db.tags
  distinct : db.TagsDistinct

/-- The plan consists of columns that stay. -/
theorem plan_of_fixed {before after : Db}
    (same :
      after.groups.map GroupRow.fixed = before.groups.map GroupRow.fixed) :
    after.plan = before.plan := by
  have read :
      ∀ {β : Type} (column : GroupKey × Int × Int × Bool → β) (key : GroupKey)
          (db : Db),
        (db.group key).map (fun row => column row.fixed) =
          ((db.groups.map GroupRow.fixed).find?
            (fun columns => columns.1 = key)).map column := by
    intro β column key db
    rw [List.find?_map, Option.map_map]
    rfl
  have sameColumn :
      ∀ {β : Type} (column : GroupKey × Int × Int × Bool → β)
          (key : GroupKey),
        (after.group key).map (fun row => column row.fixed) =
          (before.group key).map (fun row => column row.fixed) := by
    intro β column key
    rw [read, read, same]
  have keys :
      after.groups.map GroupRow.key = before.groups.map GroupRow.key :=
    map_columns same Prod.fst
  have kinds := @sameColumn Int (fun columns => columns.2.2.1)
  have targets := @sameColumn Int (fun columns => columns.2.1)
  simp only [GroupRow.fixed] at kinds targets
  simp only [plan, keys, kinds, targets]

end

end LtlsKitting.Store.Db

namespace LtlsKitting.Sync

open LtlsKitting.Php LtlsKitting.Store LtlsKitting.Interaction
open LtlsKitting.Relational LtlsKitting.Depot

section

variable {db : Db} {key : GroupKey} {value : Int}

/-- The take statement affects a row exactly if the depot allows the move. -/
theorem allows_iff_accepts
    (identified : db.GroupsIdentified) (known : ClassesKnown db)
    (key : GroupKey) (value : Int) :
    Allows db.plan db.holdings key value ↔ db.Accepts key value := by
  rw [Allows, Db.mem_places]
  constructor
  · rintro ⟨⟨row, member, rfl⟩, enough⟩
    rw [accepts_iff_inventory identified known member]
    simpa [Db.plan, Db.holdings, Db.group_of_mem identified member] using
      enough
  · intro accepted
    have found := accepted
    obtain ⟨row, member, rfl, _⟩ := found
    refine ⟨⟨row, member, rfl⟩, ?_⟩
    rw [accepts_iff_inventory identified known member] at accepted
    simpa [Db.plan, Db.holdings, Db.group_of_mem identified member] using
      accepted

theorem holdings_withdraw
    (identified : db.GroupsIdentified) (accepted : db.Accepts key value) :
    (withdraw db key value).holdings =
      db.holdings.move db.plan key value := by
  have found := accepted
  obtain ⟨row, member, rfl, _⟩ := found
  have isRow := Db.group_of_mem identified member
  have groups :
      ∀ other,
        (withdraw db row.key value).group other =
          (db.group other).map
            (fun group =>
              if group.key = row.key then { group with count := value }
              else group) := by
    intro other
    rw [withdraw_of_accepts accepted]
    exact (db.takeStock row.key value).group_setCount row.key other value
  have stocked :
      (withdraw db row.key value).inventory =
        (db.holdings.move db.plan row.key value).stock := by
    funext classId
    rw [inventory_withdraw identified member accepted]
    by_cases same : classId = row.classId
    · subst same
      simp [Holdings.move, Db.plan, Db.holdings, isRow]
    · simp [Holdings.move, Db.plan, Db.holdings, isRow, same, Ne.symm same]
  have placed :
      (withdraw db row.key value).holdings.amount =
        (db.holdings.move db.plan row.key value).amount := by
    funext other
    by_cases same : other = row.key
    · subst same
      simp [Holdings.move, Db.holdings, groups, isRow]
    · simp only [Holdings.move, Db.holdings, groups,
        Function.update_of_ne same, Option.map_map]
      congr 1
      apply Option.map_congr
      intro group carried
      simp [(Db.group_eq_some carried).2, same]
  have labelled :
      (withdraw db row.key value).holdings.label = db.holdings.label := by
    funext other
    simp only [Db.holdings, groups, Option.bind_map]
    congr 1
    funext group
    simp only [Function.comp_apply]
    split <;> rfl
  exact Holdings.ext stocked placed labelled

theorem count_of_holdings
    (identified : db.GroupsIdentified) {row : GroupRow} (member : row ∈ db.groups) :
    db.holdings.amount row.key = row.count := by
  simp [Db.holdings, Db.group_of_mem identified member]

/-- A withdrawal is a move, or is refused as one. -/
theorem withdraw_serves
    (identified : db.GroupsIdentified) (known : ClassesKnown db)
    (labels : Set Bytes) :
    Serves db.plan labels (.move key value) db.holdings
      (withdraw db key value).holdings := by
  by_cases accepted : db.Accepts key value
  · rw [holdings_withdraw identified accepted]
    exact .moved ((allows_iff_accepts identified known key value).mpr accepted)
  · rw [withdraw_of_not_accepts accepted]
    exact
      .refused
        (fun allowed =>
          accepted ((allows_iff_accepts identified known key value).mp allowed))

theorem complete_iff (identified : db.GroupsIdentified) :
    Complete db.plan db.holdings key ↔
      ∃ row ∈ db.groups, row.key = key ∧ row.count = row.target := by
  rw [Complete, Db.mem_places]
  constructor
  · rintro ⟨⟨row, member, rfl⟩, complete⟩
    refine ⟨row, member, rfl, ?_⟩
    simpa [Db.plan, Db.holdings, Db.group_of_mem identified member] using
      complete
  · rintro ⟨row, member, rfl, complete⟩
    refine ⟨⟨row, member, rfl⟩, ?_⟩
    simpa [Db.plan, Db.holdings, Db.group_of_mem identified member] using
      complete

theorem free_iff (identified : db.GroupsIdentified) (tag : Bytes) :
    Free db.plan db.holdings tag ↔
      ∀ row ∈ db.groups, row.tagId ≠ some tag := by
  constructor
  · intro free row member
    have unused :=
      free row.key (Db.mem_places.mpr ⟨row, member, rfl⟩)
    simpa [Db.holdings, Db.group_of_mem identified member] using unused
  · rintro free _ present
    obtain ⟨row, member, rfl⟩ := Db.mem_places.mp present
    simpa [Db.holdings, Db.group_of_mem identified member] using
      free row member

theorem setTag_eq_self
    (incomplete : ¬ ∃ row ∈ db.groups, row.key = key ∧ row.count = row.target)
    (tag : Option Bytes) : db.setTag key tag = db := by
  have same :
      updateWhere (fun row => row.key = key ∧ row.count = row.target)
          (fun row => { row with tagId := tag }) db.groups =
        db.groups :=
    updateWhere_eq_self
      (fun row member selected => incomplete ⟨row, member, selected⟩)
  rw [Db.setTag, same]

theorem holdings_setTag
    (identified : db.GroupsIdentified)
    (complete : ∃ row ∈ db.groups, row.key = key ∧ row.count = row.target)
    (tag : Option Bytes) :
    (db.setTag key tag).holdings = db.holdings.mark key tag := by
  obtain ⟨row, member, rfl, full⟩ := complete
  have isRow := Db.group_of_mem identified member
  have groups :
      ∀ other,
        (db.setTag row.key tag).group other =
          (db.group other).map
            (fun group =>
              if group.key = row.key ∧ group.count = group.target then
                { group with tagId := tag }
              else group) :=
    fun other => db.group_setTag row.key other tag
  have placed : (db.setTag row.key tag).holdings.amount = db.holdings.amount := by
    funext other
    simp only [Db.holdings, groups, Option.map_map]
    congr 2
    funext group
    simp only [Function.comp_apply]
    split <;> rfl
  have labelled :
      (db.setTag row.key tag).holdings.label =
        (db.holdings.mark row.key tag).label := by
    funext other
    by_cases same : other = row.key
    · subst same
      simp [Holdings.mark, Db.holdings, groups, isRow, full]
    · simp only [Holdings.mark, Db.holdings, groups,
        Function.update_of_ne same, Option.bind_map]
      apply Option.bind_congr
      intro group carried
      simp [(Db.group_eq_some carried).2, same]
  exact Holdings.ext rfl placed labelled

/-- Asking for a tag is an order to mark the group. -/
theorem setTag_serves (identified : db.GroupsIdentified) :
    Serves db.plan db.labels (.mark key) db.holdings
      (db.setTag key db.freeTag).holdings := by
  by_cases complete :
      ∃ row ∈ db.groups, row.key = key ∧ row.count = row.target
  · have isComplete := (complete_iff identified).mpr complete
    rw [holdings_setTag identified complete]
    cases free : db.freeTag with
    | some tag =>
        obtain ⟨known, unused⟩ := Db.freeTag_spec free
        exact .marked isComplete known ((free_iff identified tag).mpr unused)
    | none =>
        apply Serves.unmarked isComplete
        intro tag known unused
        have carried := List.find?_eq_none.mp free tag known
        rw [free_iff identified] at unused
        simp only [Bool.not_eq_true', Bool.not_eq_false, List.any_eq_true,
          beq_iff_eq] at carried
        obtain ⟨row, member, isTag⟩ := carried
        exact unused row member isTag
  · rw [setTag_eq_self complete]
    exact
      .incomplete
        (fun isComplete => complete ((complete_iff identified).mp isComplete))

/-! ## Requests -/

/-- What the orders of documents do not change. -/
structure Kept (initial db : Db) : Prop where
  identified : db.GroupsIdentified
  known : ClassesKnown db
  plan : db.plan = initial.plan
  labels : db.labels = initial.labels
  classIds :
    db.classes.rows.map ClassRow.id = initial.classes.rows.map ClassRow.id

theorem kept_refl
    (identified : db.GroupsIdentified) (known : ClassesKnown db) :
    Kept db db :=
  ⟨identified, known, rfl, rfl, rfl⟩

theorem Kept.trans {initial current : Db}
    (kept : Kept initial current) (more : Kept current db) :
    Kept initial db :=
  ⟨more.identified, more.known, more.plan.trans kept.plan,
    more.labels.trans kept.labels, more.classIds.trans kept.classIds⟩

theorem kept_withdraw
    (identified : db.GroupsIdentified) (known : ClassesKnown db)
    (key : GroupKey) (value : Int) : Kept db (withdraw db key value) := by
  have taken :
      (db.takeStock key value).classes.rows.map ClassRow.id =
        db.classes.rows.map ClassRow.id := by
    simp only [Db.takeStock, SerialTable.rows_update, List.map_map]
    apply List.map_congr_left
    intro row _
    exact db.takeFrom_id key value row
  refine
    ⟨groupsIdentified_withdraw identified key value, known.withdraw key value,
      Db.plan_of_fixed (withdraw_fixed db key value), ?_, ?_⟩
  · simp only [withdraw]
    split <;> rfl
  · simp only [withdraw]
    split
    · exact taken
    · exact taken

theorem kept_setTag
    (identified : db.GroupsIdentified) (known : ClassesKnown db)
    (key : GroupKey) (tag : Option Bytes) : Kept db (db.setTag key tag) := by
  refine
    ⟨Db.groupsIdentified_setTag identified key tag, ?_,
      Db.plan_of_fixed (db.fixed_setTag key tag), rfl, rfl⟩
  intro row member
  obtain ⟨source, sourceMember, ⟨_, _, rfl⟩ | ⟨_, rfl⟩⟩ :=
    Db.mem_setTag member
  · exact known source sourceMember
  · exact known row sourceMember

/-- A document is served as the orders that it stands for. -/
theorem applyRequest_serves
    (identified : db.GroupsIdentified) (known : ClassesKnown db)
    (orderId kitId : Int) (request : SyncRequest) :
    Kept db (applyRequest db orderId kitId request) ∧
      Follows (Serves db.plan db.labels) (request.orders orderId kitId)
        db.holdings (applyRequest db orderId kitId request).holdings := by
  cases request with
  | status status =>
      exact ⟨⟨identified, known, rfl, rfl, rfl⟩, .nil _⟩
  | row id value tag =>
      let addressed : GroupKey := ⟨orderId, kitId, id⟩
      have taken := kept_withdraw identified known addressed value
      have moved :
          Serves db.plan db.labels (.move addressed value) db.holdings
            (withdraw db addressed value).holdings :=
        withdraw_serves identified known db.labels
      cases tag with
      | false => exact ⟨taken, .single moved⟩
      | true =>
          have tagged :=
            kept_setTag taken.identified taken.known addressed
              (withdraw db addressed value).freeTag
          have marked :=
            @setTag_serves (withdraw db addressed value) addressed
              taken.identified
          rw [taken.plan, taken.labels] at marked
          exact ⟨taken.trans tagged, .cons moved (.single marked)⟩

/-- A synchronisation of a kit serves the orders of its documents. -/
theorem syncKit_serves
    (server : Server) (identified : db.GroupsIdentified)
    (known : ClassesKnown db) (orderId kitId : Int)
    (requests : List SyncRequest) :
    Kept db ((syncKit orderId kitId requests).exec (perform server) db) ∧
      Follows (Serves db.plan db.labels)
        (requests.flatMap (SyncRequest.orders orderId kitId)) db.holdings
        ((syncKit orderId kitId requests).exec
          (perform server) db).holdings := by
  rw [exec_syncKit]
  induction requests generalizing db with
  | nil => exact ⟨kept_refl identified known, .nil _⟩
  | cons request rest inductionHypothesis =>
      obtain ⟨kept, served⟩ :=
        applyRequest_serves identified known orderId kitId request
      obtain ⟨keptLater, servedLater⟩ :=
        inductionHypothesis kept.identified kept.known
      rw [kept.plan, kept.labels] at servedLater
      exact ⟨kept.trans keptLater, served.append servedLater⟩

/-! ## What the goods of a class are -/

/-- The goods of a class, in stock and in its groups. -/
theorem total_holdings (identified : db.GroupsIdentified) (classId : Int) :
    db.holdings.total db.plan classId =
      db.inventory classId + db.withdrawn classId := by
  have distinct : (db.groups.map GroupRow.key).Nodup := identified
  have sameSum :
      ∑ key ∈ db.plan.places with db.plan.kind key = classId,
          db.holdings.amount key =
        db.withdrawn classId := by
    rw [Finset.sum_filter]
    simp only [Db.plan, Db.withdrawn, columnSum]
    rw [List.sum_toFinset _ distinct, List.map_map]
    congr 1
    apply List.map_congr_left
    intro row member
    simp [Db.holdings, Db.group_of_mem identified member]
  rw [Holdings.total, sameSum]
  rfl

end

end LtlsKitting.Sync
