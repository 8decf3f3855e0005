import LtlsKitting.Store.Tags
import LtlsKitting.Sync.Points

/-!
# Tags under interleaved synchronisations

A page first asks for a tag that no group carries and then, in a second
statement, gives it to its group.  Whether the tag is still free at that time
is not checked.  The tags stay distinct along an interleaving exactly if it is,
each time a tag is given to a complete group.
-/

namespace LtlsKitting.Sync

open LtlsKitting.Php LtlsKitting.Store LtlsKitting.Relational
open LtlsKitting.Interaction

variable {ι : Type}

/-- The group and the tag of a statement that assigns a tag. -/
def tagClaim? : Effect → Option (GroupKey × Bytes)
  | .setTag key (some tag) => some (key, tag)
  | _ => none

/-- If the page is about to give a tag to a complete group, no other group
carries that tag. -/
def TagStillFree
    (system : System ι Effect Answer (List Goal) Db) (page : ι) : Prop :=
  ∀ claim ∈ (system.nextCall page).bind tagClaim?,
    ∀ group ∈ system.store.groups,
      group.key = claim.1 → group.count = group.target →
        ∀ other ∈ system.store.groups,
          other.tagId = some claim.2 → other.key = claim.1

private theorem tagStillFree_of_no_claim
    {batches : ι → Batch} {current : PointSystem ι} {page : ι}
    (noClaim :
      ((current.points page).statement (batches page)).bind tagClaim? =
        none) :
    TagStillFree (current.system batches) page := by
  intro claim member
  rw [PointSystem.nextCall_system, noClaim] at member
  cases member

variable [DecidableEq ι]

/-- A statement keeps the tags distinct exactly if the tag it assigns, if any,
is still free. -/
theorem tagsDistinct_step_iff
    (batches : ι → Batch) (current : PointSystem ι) (page : ι)
    (identified : current.store.GroupsIdentified)
    (distinct : current.store.TagsDistinct) :
    (current.step batches page).store.TagsDistinct ↔
      TagStillFree (current.system batches) page := by
  rw [PointSystem.store_step]
  cases point : current.points page with
  | answered goals =>
      apply iff_of_true distinct
      exact tagStillFree_of_no_claim (by rw [point]; rfl)
  | loop requests =>
      apply iff_of_true
      · rcases requests with _ | ⟨_ | _, rest⟩ <;> exact distinct
      · apply tagStillFree_of_no_claim
        rw [point]
        rcases requests with _ | ⟨_ | _, rest⟩ <;> rfl
  | counting id value tag rest =>
      apply iff_of_true
      · exact (Db.tagsDistinct_setCount _ _ _).mpr distinct
      · exact tagStillFree_of_no_claim (by rw [point]; rfl)
  | tagging id rest =>
      apply iff_of_true distinct
      exact tagStillFree_of_no_claim (by rw [point]; rfl)
  | claiming id free rest =>
      cases free with
      | none =>
          apply iff_of_true
          · exact
              Db.tagsDistinct_setTag_none identified distinct
                ((batches page).key id)
          · exact tagStillFree_of_no_claim (by rw [point]; rfl)
      | some tag =>
          have claimed :
              TagStillFree (current.system batches) page ↔
                ∀ group ∈ current.store.groups,
                  group.key = (batches page).key id →
                  group.count = group.target →
                    ∀ other ∈ current.store.groups,
                      other.tagId = some tag →
                        other.key = (batches page).key id := by
            simp only [TagStillFree]
            rw [PointSystem.nextCall_system, point]
            simp [SyncPoint.statement, tagClaim?, PointSystem.system]
          rw [claimed]
          exact
            Db.tagsDistinct_setTag_iff identified distinct
              ((batches page).key id) tag

theorem groupsIdentified_step
    (batches : ι → Batch) (current : PointSystem ι) (page : ι)
    (identified : current.store.GroupsIdentified) :
    (current.step batches page).store.GroupsIdentified := by
  rw [PointSystem.store_step]
  exact Db.groupsIdentified_of_fixed (SyncPoint.fixed_act _ _ _).symm identified

/-- Along an interleaving no two groups ever carry the same tag exactly if
every tag is still free at the time it is given to a complete group. -/
theorem interleaved_tags_distinct_iff
    (server : Server) (initial : Db)
    (identified : initial.GroupsIdentified)
    (distinct : initial.TagsDistinct)
    (batches : ι → Batch) (schedule : List ι) :
    EveryState (System.step (perform server))
        (fun system => system.store.TagsDistinct)
        (startPages initial batches) schedule ↔
      EveryStep (System.step (perform server)) TagStillFree
        (startPages initial batches) schedule := by
  rw [← PointSystem.system_start,
    everyState_image (PointSystem.system_step batches server),
    everyStep_image (PointSystem.system_step batches server)]
  exact
    everyState_iff_everyStep
      (fun current page => groupsIdentified_step batches current page)
      (fun current page => tagsDistinct_step_iff batches current page)
      identified distinct

/-- Two pages of one kit that complete and label its two groups. -/
def labelBoth : Bool → Batch
  | false => ⟨1, 0, [.row 0 5 true]⟩
  | true => ⟨1, 0, [.row 1 5 true]⟩

theorem interleaved_tags_distinct_in_turn :
    EveryState (System.step (perform Server.plain))
        (fun system => system.store.TagsDistinct)
        (startPages Db.bolts labelBoth)
        [false, false, false, false, true, true, true, true] ↔
      EveryStep (System.step (perform Server.plain)) TagStillFree
        (startPages Db.bolts labelBoth)
        [false, false, false, false, true, true, true, true] :=
  interleaved_tags_distinct_iff Server.plain Db.bolts
    (by decide : (Db.bolts.groups.map GroupRow.key).Nodup)
    (by decide : (Db.bolts.groups.filterMap GroupRow.tagId).Nodup)
    labelBoth [false, false, false, false, true, true, true, true]

/-- If both pages choose before either of them claims, they choose the same
tag, and both groups carry it. -/
theorem interleaved_tag_twice :
    Db.bolts.GroupsIdentified ∧ Db.bolts.TagsDistinct ∧
      ¬ (runPages Server.plain Db.bolts labelBoth
          [false, false, false, true, true, true,
            false, true]).store.TagsDistinct := by
  refine ⟨?_, ?_, ?_⟩
  · exact (by decide : (Db.bolts.groups.map GroupRow.key).Nodup)
  · exact (by decide : (Db.bolts.groups.filterMap GroupRow.tagId).Nodup)
  · simp only [Db.TagsDistinct]
    decide

end LtlsKitting.Sync
