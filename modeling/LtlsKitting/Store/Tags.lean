import LtlsKitting.Store.Stock

/-!
# Tags of groups

What the tag statements do to the tags that the groups carry.  A free tag is
carried by no group, so giving it to a group keeps the tags distinct; giving a
tag that another group carries does not.
-/

namespace LtlsKitting.Store

open LtlsKitting.Php LtlsKitting.Relational

namespace Db

/-- Distinct tags, in terms of the keys of the groups. -/
theorem tagsDistinct_iff {db : Db} (identified : db.GroupsIdentified) :
    db.TagsDistinct ↔
      ∀ left ∈ db.groups, ∀ right ∈ db.groups, ∀ tag,
        left.tagId = some tag → right.tagId = some tag →
          left.key = right.key := by
  simp only [TagsDistinct, List.Nodup]
  rw [List.pairwise_filterMap]
  constructor
  · intro distinct left leftMember right rightMember tag leftTag rightTag
    by_contra different
    have symmetric :
        Std.Symm (fun first second : GroupRow =>
          ∀ tag, first.tagId = some tag →
            ∀ other, second.tagId = some other → tag ≠ other) :=
      ⟨fun first second apart tag secondTag other firstTag same =>
        apart other firstTag tag secondTag same.symm⟩
    have apart :=
      List.Pairwise.forall distinct leftMember rightMember
        (fun same => different (congrArg GroupRow.key same))
    exact apart tag leftTag tag rightTag rfl
  · intro byKey
    have keys : db.groups.Pairwise (fun left right => left.key ≠ right.key) :=
      List.pairwise_map.mp identified
    apply keys.imp_of_mem
    intro left right leftMember rightMember different tag leftTag other
      rightTag same
    subst same
    exact
      different
        (byKey left leftMember right rightMember tag leftTag rightTag)

theorem groupsIdentified_setTag {db : Db}
    (identified : db.GroupsIdentified)
    (key : GroupKey) (tag : Option Bytes) :
    (db.setTag key tag).GroupsIdentified :=
  groupsIdentified_of_fixed (db.fixed_setTag key tag).symm identified

/-- A row of the table after a tag statement: a row that was there before, or
a complete group of the given key that now carries the given tag. -/
theorem mem_setTag {db : Db} {key : GroupKey} {tag : Option Bytes}
    {row : GroupRow} (member : row ∈ (db.setTag key tag).groups) :
    ∃ source ∈ db.groups,
      (source.key = key ∧ source.count = source.target ∧
          row = { source with tagId := tag }) ∨
        (¬ (source.key = key ∧ source.count = source.target) ∧
          row = source) := by
  obtain ⟨source, sourceMember, rewritten⟩ := mem_updateWhere.mp member
  refine ⟨source, sourceMember, ?_⟩
  by_cases selected : source.key = key ∧ source.count = source.target
  · rw [if_pos selected] at rewritten
    exact Or.inl ⟨selected.1, selected.2, rewritten.symm⟩
  · rw [if_neg selected] at rewritten
    exact Or.inr ⟨selected, rewritten.symm⟩

/-- Clearing a tag keeps the tags distinct. -/
theorem tagsDistinct_setTag_none {db : Db}
    (identified : db.GroupsIdentified) (distinct : db.TagsDistinct)
    (key : GroupKey) : (db.setTag key none).TagsDistinct := by
  rw [tagsDistinct_iff identified] at distinct
  rw [tagsDistinct_iff (groupsIdentified_setTag identified key none)]
  intro left leftMember right rightMember tag leftTag rightTag
  obtain ⟨leftSource, leftIn, ⟨_, _, rfl⟩ | ⟨_, rfl⟩⟩ :=
    mem_setTag leftMember
  · cases leftTag
  · obtain ⟨rightSource, rightIn, ⟨_, _, rfl⟩ | ⟨_, rfl⟩⟩ :=
      mem_setTag rightMember
    · cases rightTag
    · exact distinct left leftIn right rightIn tag leftTag rightTag

/-- Giving a tag to a group keeps the tags distinct exactly if no other group
carries the tag, or the group is not complete and the statement affects
nothing. -/
theorem tagsDistinct_setTag_iff {db : Db}
    (identified : db.GroupsIdentified) (distinct : db.TagsDistinct)
    (key : GroupKey) (tag : Bytes) :
    (db.setTag key (some tag)).TagsDistinct ↔
      ∀ group ∈ db.groups, group.key = key → group.count = group.target →
        ∀ other ∈ db.groups, other.tagId = some tag → other.key = key := by
  have byKey := (tagsDistinct_iff identified).mp distinct
  rw [tagsDistinct_iff (groupsIdentified_setTag identified key (some tag))]
  constructor
  · intro after group member sameKey complete other otherMember otherTag
    by_contra different
    have tagged :
        { group with tagId := some tag } ∈
          (db.setTag key (some tag)).groups :=
      mem_updateWhere.mpr ⟨group, member, by simp [sameKey, complete]⟩
    have untouched : other ∈ (db.setTag key (some tag)).groups :=
      mem_updateWhere.mpr ⟨other, otherMember, by simp [different]⟩
    have same := after _ tagged other untouched tag rfl otherTag
    exact different (same.symm.trans sameKey)
  · intro free left leftMember right rightMember carried leftTag rightTag
    obtain ⟨leftSource, leftIn, leftCase⟩ := mem_setTag leftMember
    obtain ⟨rightSource, rightIn, rightCase⟩ := mem_setTag rightMember
    rcases leftCase with ⟨leftKey, leftComplete, rfl⟩ | ⟨_, rfl⟩
    · have sameTag : tag = carried := by simpa using leftTag
      subst sameTag
      rcases rightCase with ⟨rightKey, _, rfl⟩ | ⟨_, rfl⟩
      · exact leftKey.trans rightKey.symm
      · have rightKey :=
          free leftSource leftIn leftKey leftComplete right rightIn rightTag
        exact leftKey.trans rightKey.symm
    · rcases rightCase with ⟨rightKey, rightComplete, rfl⟩ | ⟨_, rfl⟩
      · have sameTag : tag = carried := by simpa using rightTag
        subst sameTag
        have leftKey :=
          free rightSource rightIn rightKey rightComplete left leftIn leftTag
        exact leftKey.trans rightKey.symm
      · exact byKey left leftIn right rightIn carried leftTag rightTag

/-- A free tag is a tag of the database that no group carries. -/
theorem freeTag_spec {db : Db} {tag : Bytes}
    (free : db.freeTag = some tag) :
    tag ∈ db.tags ∧ ∀ group ∈ db.groups, group.tagId ≠ some tag := by
  refine ⟨List.mem_of_find?_eq_some free, ?_⟩
  intro group member carried
  have unused := List.find?_some free
  simp only [Bool.not_eq_true', List.any_eq_false, beq_iff_eq] at unused
  exact unused group member carried

/-- The tags that the groups carry do not depend on their counts. -/
theorem tagsDistinct_setCount
    (db : Db) (key : GroupKey) (value : Int) :
    (db.setCount key value).TagsDistinct ↔ db.TagsDistinct := by
  have sameTags :
      (db.setCount key value).groups.map GroupRow.tagId =
        db.groups.map GroupRow.tagId :=
    map_updateWhere (fun _ _ _ => rfl)
  have carried :
      ∀ rows : List GroupRow,
        rows.filterMap GroupRow.tagId =
          (rows.map GroupRow.tagId).filterMap id := by
    intro rows
    rw [List.filterMap_map]
    rfl
  simp only [TagsDistinct]
  rw [carried, sameTags, ← carried]

end Db

end LtlsKitting.Store
