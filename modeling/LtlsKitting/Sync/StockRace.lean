import LtlsKitting.Sync.Points
import Mathlib.Algebra.BigOperators.Group.Finset.Basic

/-!
# The stock under interleaved synchronisations

Between the take statement of a request and its count update the amount it
has taken is recorded nowhere in the store.  The ledger below counts it as a
debt of the page, measured with the count that the take statement read.  The
count update settles the debt exactly if the group still holds that count; if
another page has changed it in between, items are lost or created.
-/

namespace LtlsKitting.Sync

open LtlsKitting.Php LtlsKitting.Store LtlsKitting.Relational
open LtlsKitting.Interaction

variable {ι : Type}

/-- The group whose count a statement stores. -/
def countKey? : Effect → Option GroupKey
  | .setCount key _ => some key
  | _ => none

/-- If the page is about to store a count, its group still holds the count
that the page's take statement read. -/
def CountStillRead
    (system : System ι Effect Answer (List Goal) Db) (page : ι) : Prop :=
  ∀ key ∈ (system.nextCall page).bind countKey?,
    ∀ now ∈ system.store.groups,
      ∀ before ∈ (system.clients page).seen.groups,
        now.key = key → before.key = key → now.count = before.count

instance (system : System ι Effect Answer (List Goal) Db) (page : ι) :
    Decidable (CountStillRead system page) :=
  inferInstanceAs (Decidable (∀ key ∈ (system.nextCall page).bind countKey?, _))

/-- The items that a page has taken and not yet stored in its group. -/
def debt (batch : Batch) (seen : Db) (classId : Int) : SyncPoint → Int
  | .counting id value _ _ =>
      columnSum
        (fun row =>
          if row.key = batch.key id ∧ row.classId = classId then
            value - row.count
          else
            0)
        seen.groups
  | _ => 0

theorem debt_afterCount
    (batch : Batch) (seen : Db) (classId id : Int) (tag : Bool)
    (rest : List SyncRequest) :
    debt batch seen classId (SyncPoint.afterCount id tag rest) = 0 := by
  cases tag <;> rfl

theorem debt_counting
    {batch : Batch} {seen : Db} (identified : seen.GroupsIdentified)
    {group : GroupRow} (member : group ∈ seen.groups)
    {id : Int} (sameKey : group.key = batch.key id)
    (classId value : Int) (tag : Bool) (rest : List SyncRequest) :
    debt batch seen classId (.counting id value tag rest) =
      if group.classId = classId then value - group.count else 0 := by
  simp only [debt]
  rw [columnSum_eq_of_identifies identified member]
  · simp [sameKey]
  · intro other _ different
    have otherKey : other.key ≠ batch.key id := by
      rw [← sameKey]
      exact different
    simp [otherKey]

theorem debt_counting_of_missing
    {batch : Batch} {seen : Db} {id : Int}
    (missing : ∀ group ∈ seen.groups, group.key ≠ batch.key id)
    (classId value : Int) (tag : Bool) (rest : List SyncRequest) :
    debt batch seen classId (.counting id value tag rest) = 0 := by
  simp only [debt]
  apply columnSum_eq_zero
  intro row member
  simp [missing row member]

private theorem exists_same_fixed {first second : Db}
    (same :
      first.groups.map GroupRow.fixed = second.groups.map GroupRow.fixed)
    {group : GroupRow} (member : group ∈ first.groups) :
    ∃ other ∈ second.groups,
      other.key = group.key ∧ other.classId = group.classId := by
  have mapped : group.fixed ∈ second.groups.map GroupRow.fixed := by
    rw [← same]
    exact List.mem_map.mpr ⟨group, member, rfl⟩
  obtain ⟨other, otherMember, sameFixed⟩ := List.mem_map.mp mapped
  simp only [GroupRow.fixed, Prod.mk.injEq] at sameFixed
  exact ⟨other, otherMember, sameFixed.1, sameFixed.2.2.1⟩

private theorem take_balance
    {batch : Batch} {db : Db} (identified : db.GroupsIdentified)
    (classId id value : Int) (tag : Bool) (rest : List SyncRequest) :
    (db.takeStock (batch.key id) value).inventory classId +
        (db.takeStock (batch.key id) value).withdrawn classId +
        debt batch db classId
          (SyncPoint.next batch db (.loop (.row id value tag :: rest))) =
      db.inventory classId + db.withdrawn classId := by
  simp only [SyncPoint.next]
  by_cases accepted : db.Accepts (batch.key id) value
  · rw [if_pos ((db.accepts_iff_affected _ _).mpr accepted)]
    obtain ⟨group, member, sameKey, row, rowMember, sameClass, enough⟩ :=
      accepted
    rw [debt_counting identified member sameKey, ← sameKey,
      Db.inventory_takeStock identified member rowMember sameClass enough,
      Db.withdrawn_takeStock]
    omega
  · rw [if_neg (fun affected =>
        accepted ((db.accepts_iff_affected _ _).mp affected)),
      debt_afterCount, Db.takeStock_of_not_accepts accepted]
    exact add_zero _

private theorem count_balance
    {batch : Batch} {db seen : Db}
    (identified : db.GroupsIdentified)
    (seenFixed :
      seen.groups.map GroupRow.fixed = db.groups.map GroupRow.fixed)
    {id : Int}
    (undisturbed :
      ∀ now ∈ db.groups, ∀ before ∈ seen.groups,
        now.key = batch.key id → before.key = batch.key id →
          now.count = before.count)
    (classId value : Int) (tag : Bool) (rest : List SyncRequest) :
    (db.setCount (batch.key id) value).inventory classId +
        (db.setCount (batch.key id) value).withdrawn classId =
      db.inventory classId + db.withdrawn classId +
        debt batch seen classId (.counting id value tag rest) := by
  have seenIdentified : seen.GroupsIdentified :=
    Db.groupsIdentified_of_fixed seenFixed.symm identified
  by_cases present : ∃ group ∈ db.groups, group.key = batch.key id
  · obtain ⟨group, member, sameKey⟩ := present
    obtain ⟨before, beforeMember, beforeKey, beforeClass⟩ :=
      exists_same_fixed seenFixed.symm member
    have sameCount : group.count = before.count :=
      undisturbed group member before beforeMember sameKey
        (beforeKey.trans sameKey)
    rw [debt_counting seenIdentified beforeMember
        (beforeKey.trans sameKey), ← sameKey,
      Db.withdrawn_setCount identified member, beforeClass, sameCount,
      Db.inventory_setCount]
    omega
  · have missing : ∀ group ∈ db.groups, group.key ≠ batch.key id := by
      intro group member sameKey
      exact present ⟨group, member, sameKey⟩
    have seenMissing :
        ∀ group ∈ seen.groups, group.key ≠ batch.key id := by
      intro group member sameKey
      obtain ⟨other, otherMember, otherKey, _⟩ :=
        exists_same_fixed seenFixed member
      exact missing other otherMember (otherKey.trans sameKey)
    rw [Db.setCount_of_missing missing,
      debt_counting_of_missing seenMissing]
    exact (add_zero _).symm

/-- One statement moves items between the stock, the groups and the debt of
the page that issues it. -/
theorem act_balance
    (batch : Batch) {db seen : Db} (point : SyncPoint)
    (identified : db.GroupsIdentified)
    (seenFixed :
      seen.groups.map GroupRow.fixed = db.groups.map GroupRow.fixed)
    (undisturbed :
      ∀ id value tag rest, point = .counting id value tag rest →
        ∀ now ∈ db.groups, ∀ before ∈ seen.groups,
          now.key = batch.key id → before.key = batch.key id →
            now.count = before.count)
    (classId : Int) :
    (point.act batch db).inventory classId +
        (point.act batch db).withdrawn classId +
        debt batch db classId (point.next batch db) =
      db.inventory classId + db.withdrawn classId +
        debt batch seen classId point := by
  cases point with
  | loop requests =>
      rcases requests with _ | ⟨_ | _, rest⟩
      · rfl
      · exact (take_balance identified classId _ _ _ _).trans
          (add_zero _).symm
      · rfl
  | counting id value tag rest =>
      have settled :=
        count_balance identified seenFixed
          (undisturbed id value tag rest rfl) classId value tag rest
      simp only [SyncPoint.act, SyncPoint.next, debt_afterCount, add_zero]
      exact settled
  | tagging id rest =>
      rfl
  | claiming id free rest =>
      simp only [SyncPoint.act, SyncPoint.next, debt, add_zero,
        Db.inventory_setTag, Db.withdrawn_setTag]
  | answered goals =>
      rfl

theorem countStillRead_counting
    {batches : ι → Batch} {current : PointSystem ι} {page : ι}
    (undisturbed : CountStillRead (current.system batches) page)
    {id value : Int} {tag : Bool} {rest : List SyncRequest}
    (point : current.points page = .counting id value tag rest) :
    ∀ now ∈ current.store.groups, ∀ before ∈ (current.seen page).groups,
      now.key = (batches page).key id → before.key = (batches page).key id →
        now.count = before.count := by
  apply undisturbed ((batches page).key id)
  rw [PointSystem.nextCall_system, point]
  rfl

section

variable [Fintype ι]

/-- Stock, groups and debts add up to what they were at the start. -/
structure Ledger
    (initial : Db) (batches : ι → Batch) (current : PointSystem ι) :
    Prop where
  fixed :
    current.store.groups.map GroupRow.fixed =
      initial.groups.map GroupRow.fixed
  seenFixed :
    ∀ page,
      (current.seen page).groups.map GroupRow.fixed =
        initial.groups.map GroupRow.fixed
  balance :
    ∀ classId,
      current.store.inventory classId + current.store.withdrawn classId +
          ∑ page,
            debt (batches page) (current.seen page) classId
              (current.points page) =
        initial.inventory classId + initial.withdrawn classId

theorem ledger_start (initial : Db) (batches : ι → Batch) :
    Ledger initial batches (PointSystem.start initial batches) := by
  refine ⟨rfl, fun _ => rfl, ?_⟩
  intro classId
  have noDebt :
      ∑ page,
          debt (batches page)
            ((PointSystem.start initial batches).seen page) classId
            ((PointSystem.start initial batches).points page) = 0 := by
    apply Finset.sum_eq_zero
    intro page _
    rfl
  rw [noDebt]
  exact add_zero _

variable [DecidableEq ι]

private theorem sum_of_step
    (before after : ι → Int) (page : ι)
    (elsewhere : ∀ other, other ≠ page → after other = before other) :
    ∑ other, after other + before page =
      ∑ other, before other + after page := by
  have split :
      ∀ column : ι → Int,
        ∑ other, column other =
          column page + ∑ other ∈ Finset.univ.erase page, column other :=
    fun column =>
      (Finset.add_sum_erase Finset.univ column (Finset.mem_univ page)).symm
  have same :
      ∑ other ∈ Finset.univ.erase page, after other =
        ∑ other ∈ Finset.univ.erase page, before other := by
    apply Finset.sum_congr rfl
    intro other member
    exact elsewhere other (Finset.ne_of_mem_erase member)
  rw [split after, split before, same]
  omega

/-- The ledger is kept by every statement that meets the condition. -/
theorem ledger_step
    {initial : Db} (identified : initial.GroupsIdentified)
    {batches : ι → Batch} {current : PointSystem ι}
    (ledger : Ledger initial batches current) (page : ι)
    (undisturbed : CountStillRead (current.system batches) page) :
    Ledger initial batches (current.step batches page) := by
  by_cases answered : ∃ goals, current.points page = .answered goals
  · obtain ⟨goals, answered⟩ := answered
    rw [PointSystem.step_of_answered batches answered]
    exact ledger
  · have running : ∀ goals, current.points page ≠ .answered goals :=
      fun goals found => answered ⟨goals, found⟩
    rw [PointSystem.step_of_running batches running]
    refine ⟨?_, ?_, ?_⟩
    · exact (SyncPoint.fixed_act _ _ _).trans ledger.fixed
    · intro other
      by_cases same : other = page
      · subst same
        simpa using ledger.fixed
      · simpa [same] using ledger.seenFixed other
    · intro classId
      have currentIdentified : current.store.GroupsIdentified :=
        Db.groupsIdentified_of_fixed ledger.fixed.symm identified
      have moved :=
        act_balance (batches page) (current.points page)
          currentIdentified
          ((ledger.seenFixed page).trans ledger.fixed.symm)
          (by
            intro id value tag rest point
            exact countStillRead_counting undisturbed point)
          classId
      have others :=
        sum_of_step
          (fun other =>
            debt (batches other) (current.seen other) classId
              (current.points other))
          (fun other =>
            debt (batches other)
              (Function.update current.seen page current.store other)
              classId
              (Function.update current.points page
                ((current.points page).next (batches page)
                  current.store) other))
          page
          (by
            intro other different
            simp [different])
      have balance := ledger.balance classId
      simp only [Function.update_self] at others
      simp only at balance ⊢
      omega

/-- No stock is lost or created by an interleaving in which every count update
finds the count that its own take statement read: once all pages have been
answered, inventory and withdrawn items of every class add up to what they
were before. -/
theorem interleaved_stock_conserved
    (server : Server) (initial : Db)
    (identified : initial.GroupsIdentified)
    (batches : ι → Batch) (schedule : List ι)
    (undisturbed :
      EveryStep (System.step (perform server)) CountStillRead
        (startPages initial batches) schedule)
    (finished :
      ∀ page, (runPages server initial batches schedule).Finished page)
    (classId : Int) :
    (runPages server initial batches schedule).store.inventory classId +
        (runPages server initial batches schedule).store.withdrawn classId =
      initial.inventory classId + initial.withdrawn classId := by
  rw [← PointSystem.system_start,
    everyStep_image (PointSystem.system_step batches server)] at undisturbed
  rw [PointSystem.runPages_eq] at finished ⊢
  have ledger :
      Ledger initial batches
        (runActions (PointSystem.step batches)
          (PointSystem.start initial batches) schedule) :=
    runActions_invariant (Ledger initial batches)
      (fun current page ledger undisturbed =>
        ledger_step identified ledger page undisturbed)
      (ledger_start initial batches) undisturbed
  have balance := ledger.balance classId
  have settled :
      ∑ page,
          debt (batches page)
            ((runActions (PointSystem.step batches)
              (PointSystem.start initial batches) schedule).seen page)
            classId
            ((runActions (PointSystem.step batches)
              (PointSystem.start initial batches) schedule).points page) =
        0 := by
    apply Finset.sum_eq_zero
    intro page _
    obtain ⟨goals, answered⟩ :=
      (PointSystem.finished_iff batches _ page).mp (finished page)
    rw [answered]
    rfl
  rw [settled, add_zero] at balance
  exact balance

end

/-- Two pages of one kit that both withdraw five bolts for its first group. -/
def sameGroupTwice (tag : Bool) : Bool → Batch :=
  fun _ => ⟨1, 0, [.row 0 5 tag]⟩

theorem interleaved_stock_conserved_in_turn :
    (runPages Server.plain Db.bolts (sameGroupTwice true)
          [false, false, false, false, false,
            true, true, true, true, true]).store.inventory 1 +
        (runPages Server.plain Db.bolts (sameGroupTwice true)
          [false, false, false, false, false,
            true, true, true, true, true]).store.withdrawn 1 =
      Db.bolts.inventory 1 + Db.bolts.withdrawn 1 :=
  interleaved_stock_conserved Server.plain Db.bolts
    (by decide : (Db.bolts.groups.map GroupRow.key).Nodup)
    (sameGroupTwice true)
    [false, false, false, false, false, true, true, true, true, true]
    (by decide) (by decide) 1

/-- If both pages take before either of them stores its count, the items are
taken twice and stored once: five of the ten bolts are gone. -/
theorem interleaved_stock_lost :
    Db.bolts.GroupsIdentified ∧
      (∀ page,
        (runPages Server.plain Db.bolts (sameGroupTwice false)
          [false, true, false, true, false, true]).Finished page) ∧
      (runPages Server.plain Db.bolts (sameGroupTwice false)
            [false, true, false, true, false, true]).store.inventory 1 +
          (runPages Server.plain Db.bolts (sameGroupTwice false)
            [false, true, false, true, false, true]).store.withdrawn 1 ≠
        Db.bolts.inventory 1 + Db.bolts.withdrawn 1 := by
  refine ⟨?_, ?_, ?_⟩
  · exact (by decide : (Db.bolts.groups.map GroupRow.key).Nodup)
  · decide
  · decide

end LtlsKitting.Sync
