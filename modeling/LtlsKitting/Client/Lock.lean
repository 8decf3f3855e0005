import LtlsKitting.Client.Page
import LtlsKitting.Store.Tags

/-!
# Labelled groups

A group is labelled if it is complete and carries a tag.  The page locks the
row of a labelled group, but only when a response tells it; the server does
not check whether the group that a document addresses is labelled.  A labelled
group therefore stays as it is exactly as long as no document that reaches the
server asks for another tag or for another count.
-/

namespace LtlsKitting.Client

open LtlsKitting.Php LtlsKitting.Store LtlsKitting.Sync LtlsKitting.Web
open LtlsKitting.Interaction LtlsKitting.Relational

def isLabelled (group : GroupRow) : Bool :=
  group.count = group.target && group.tagId.isSome

/-- The rows of the labelled groups are still there, unchanged. -/
def KeepsLabelled (before after : Db) : Prop :=
  ∀ group ∈ before.groups, isLabelled group = true → group ∈ after.groups

theorem KeepsLabelled.refl (db : Db) : KeepsLabelled db db :=
  fun _ member _ => member

theorem KeepsLabelled.trans {first second third : Db}
    (keeps : KeepsLabelled first second)
    (keepsAgain : KeepsLabelled second third) :
    KeepsLabelled first third :=
  fun group member labelled =>
    keepsAgain group (keeps group member labelled) labelled

/-- A request for a labelled group asks for no tag, and for the count that the
group has or for more than the inventory holds. -/
def requestRespects (orderId kitId : Int) (db : Db) : SyncRequest → Bool
  | .row id value tag =>
      db.groups.all (fun group =>
        !(group.key = ⟨orderId, kitId, id⟩ && isLabelled group) ||
          (!tag &&
            (value = group.count ||
              db.takeAffected ⟨orderId, kitId, id⟩ value = 0)))
  | .status _ => true

theorem requestRespects_row
    {orderId kitId id value : Int} {tag : Bool} {db : Db} :
    requestRespects orderId kitId db (.row id value tag) = true ↔
      ∀ group ∈ db.groups, group.key = ⟨orderId, kitId, id⟩ →
        isLabelled group = true →
          tag = false ∧
            (value = group.count ∨
              ¬ db.Accepts ⟨orderId, kitId, id⟩ value) := by
  have refused :
      db.takeAffected ⟨orderId, kitId, id⟩ value = 0 ↔
        ¬ db.Accepts ⟨orderId, kitId, id⟩ value := by
    rw [← db.accepts_iff_affected]
    omega
  simp only [requestRespects, List.all_eq_true, Bool.or_eq_true,
    Bool.not_eq_true', Bool.and_eq_false_imp, Bool.and_eq_true,
    decide_eq_true_eq, refused]
  constructor
  · intro respects group member sameKey labelled
    rcases respects group member with notLabelled | harmless
    · rw [notLabelled sameKey] at labelled
      cases labelled
    · exact harmless
  · intro respects group member
    by_cases sameKey : group.key = ⟨orderId, kitId, id⟩
    · cases labelled : isLabelled group with
      | false => exact Or.inl (fun _ => rfl)
      | true => exact Or.inr (respects group member sameKey labelled)
    · exact Or.inl (fun same => absurd same sameKey)

/-- A withdrawal that is refused or leaves the count keeps the row. -/
theorem mem_withdraw
    {db : Db} {key : GroupKey} {value : Int} {group : GroupRow}
    (member : group ∈ db.groups)
    (same :
      group.key = key → value = group.count ∨ ¬ db.Accepts key value) :
    group ∈ (withdraw db key value).groups := by
  by_cases accepted : db.Accepts key value
  · rw [withdraw_of_accepts accepted]
    refine mem_updateWhere.mpr ⟨group, member, ?_⟩
    split
    next sameKey =>
      rcases same sameKey with sameCount | refused
      · rw [sameCount]
      · exact absurd accepted refused
    next => rfl
  · rw [withdraw_of_not_accepts accepted]
    exact member

/-- A request that respects the labelled groups keeps them. -/
theorem applyRequest_keepsLabelled
    {orderId kitId : Int} {db : Db} {request : SyncRequest}
    (respects : requestRespects orderId kitId db request = true) :
    KeepsLabelled db (applyRequest db orderId kitId request) := by
  cases request with
  | status status =>
      exact KeepsLabelled.refl db
  | row id value tag =>
      intro group member labelled
      have harmless := requestRespects_row.mp respects group member
      have withdrawn :
          group ∈ (withdraw db ⟨orderId, kitId, id⟩ value).groups :=
        mem_withdraw member (fun sameKey => (harmless sameKey labelled).2)
      cases tag with
      | false =>
          exact withdrawn
      | true =>
          refine mem_updateWhere.mpr ⟨group, withdrawn, ?_⟩
          split
          next selected =>
            have noTag := (harmless selected.1 labelled).1
            cases noTag
          next => rfl

/-- If the key identifies the rows, a row that is still there after an update
was not changed by it. -/
theorem update_eq_of_mem
    {rows : List GroupRow} {update : GroupRow → GroupRow}
    (identified : Identifies GroupRow.key rows)
    (keyKept : ∀ row, (update row).key = row.key)
    {group : GroupRow} (member : group ∈ rows)
    (still : group ∈ rows.map update) : update group = group := by
  obtain ⟨source, sourceMember, updated⟩ := List.mem_map.mp still
  have sameKey : source.key = group.key := by
    rw [← keyKept source, updated]
  rw [identified.eq_of_key_eq sourceMember member sameKey] at updated
  exact updated

/-- The row of a group after a withdrawal. -/
def withdrawRow (db : Db) (key : GroupKey) (value : Int) (row : GroupRow) :
    GroupRow :=
  if 0 < db.takeAffected key value ∧ row.key = key then
    { row with count := value }
  else
    row

theorem groups_withdraw (db : Db) (key : GroupKey) (value : Int) :
    (withdraw db key value).groups =
      db.groups.map (withdrawRow db key value) := by
  by_cases accepted : db.Accepts key value
  · have affected := (db.accepts_iff_affected key value).mpr accepted
    rw [withdraw_of_accepts accepted]
    apply List.map_congr_left
    intro row _
    simp [withdrawRow, affected]
  · have nothing : ¬ 0 < db.takeAffected key value :=
      fun affected => accepted ((db.accepts_iff_affected key value).mp affected)
    rw [withdraw_of_not_accepts accepted]
    conv_lhs => rw [← List.map_id db.groups]
    apply List.map_congr_left
    intro row _
    simp [withdrawRow, nothing]

theorem withdrawRow_key
    (db : Db) (key : GroupKey) (value : Int) (row : GroupRow) :
    (withdrawRow db key value row).key = row.key := by
  simp only [withdrawRow]
  split <;> rfl

/-- The row of a group after a tag statement. -/
def labelRow (key : GroupKey) (tag : Option Bytes) (row : GroupRow) :
    GroupRow :=
  if row.key = key ∧ row.count = row.target then
    { row with tagId := tag }
  else
    row

theorem labelRow_columns
    (key : GroupKey) (tag : Option Bytes) (row : GroupRow) :
    (labelRow key tag row).key = row.key ∧
      (labelRow key tag row).count = row.count := by
  simp only [labelRow]
  split <;> exact ⟨rfl, rfl⟩

theorem withdrawRow_eq_of_count
    {db : Db} {key : GroupKey} {value : Int} {group : GroupRow}
    (unchanged : (withdrawRow db key value group).count = group.count) :
    withdrawRow db key value group = group := by
  simp only [withdrawRow] at unchanged ⊢
  split at unchanged
  next selected =>
    have sameValue : value = group.count := unchanged
    rw [if_pos selected, sameValue]
  next refused =>
    rw [if_neg refused]

/-- If a withdrawal leaves the count of a group, it was refused or asked for
this count. -/
theorem refused_of_count
    {db : Db} {key : GroupKey} {value : Int} {group : GroupRow}
    (sameKey : group.key = key)
    (unchanged : (withdrawRow db key value group).count = group.count) :
    value = group.count ∨ ¬ db.Accepts key value := by
  by_cases accepted : db.Accepts key value
  · left
    have affected := (db.accepts_iff_affected key value).mpr accepted
    simpa [withdrawRow, affected, sameKey] using unchanged
  · exact Or.inr accepted

/-- A free tag is carried by no group, so a labelled group that is labelled
again changes. -/
theorem labelRow_freeTag_ne
    {db : Db} {key : GroupKey} {group : GroupRow}
    (member : group ∈ db.groups) (sameKey : group.key = key)
    (labelled : isLabelled group = true) :
    labelRow key db.freeTag group ≠ group := by
  intro unchanged
  obtain ⟨complete, tagged⟩ :
      group.count = group.target ∧ group.tagId.isSome = true := by
    simpa [isLabelled] using labelled
  obtain ⟨carried, tagId⟩ := Option.isSome_iff_exists.mp tagged
  rw [labelRow, if_pos ⟨sameKey, complete⟩] at unchanged
  have freeTag : db.freeTag = group.tagId :=
    congrArg GroupRow.tagId unchanged
  have unused := (Db.freeTag_spec (freeTag.trans tagId)).2 group member
  exact unused tagId

theorem groups_label
    (db : Db) (key : GroupKey) (value : Int) (tag : Option Bytes) :
    ((withdraw db key value).setTag key tag).groups =
      db.groups.map
        (fun row => labelRow key tag (withdrawRow db key value row)) := by
  have labelled :
      ((withdraw db key value).setTag key tag).groups =
        (withdraw db key value).groups.map (labelRow key tag) := rfl
  rw [labelled, groups_withdraw, List.map_map]
  rfl

/-- Conversely, a request that keeps the labelled groups respects them: every
other request gives such a group another count or another tag. -/
theorem requestRespects_of_keepsLabelled
    {orderId kitId : Int} {db : Db} {request : SyncRequest}
    (identified : db.GroupsIdentified)
    (keeps : KeepsLabelled db (applyRequest db orderId kitId request)) :
    requestRespects orderId kitId db request = true := by
  cases request with
  | status status =>
      rfl
  | row id value tag =>
      rw [requestRespects_row]
      intro group member sameKey labelled
      have still := keeps group member labelled
      cases tag with
      | false =>
          have inWithdrawn :
              group ∈
                (withdraw db ⟨orderId, kitId, id⟩ value).groups := still
          rw [groups_withdraw] at inWithdrawn
          have unchanged :=
            update_eq_of_mem identified (withdrawRow_key db _ value) member
              inWithdrawn
          exact ⟨rfl, refused_of_count sameKey (by rw [unchanged])⟩
      | true =>
          let after := withdraw db ⟨orderId, kitId, id⟩ value
          have inLabelled :
              group ∈
                (after.setTag ⟨orderId, kitId, id⟩ after.freeTag).groups :=
            still
          rw [groups_label] at inLabelled
          have unchanged :=
            update_eq_of_mem identified
              (fun row =>
                (labelRow_columns _ _ _).1.trans
                  (withdrawRow_key db _ value row))
              member inLabelled
          have sameRow :
              withdrawRow db ⟨orderId, kitId, id⟩ value group = group := by
            apply withdrawRow_eq_of_count
            exact
              (labelRow_columns _ _ _).2.symm.trans
                (congrArg GroupRow.count unchanged)
          have inAfter : group ∈ after.groups := by
            rw [groups_withdraw]
            exact List.mem_map.mpr ⟨group, member, sameRow⟩
          rw [sameRow] at unchanged
          exact absurd unchanged (labelRow_freeTag_ne inAfter sameKey labelled)

/-! ## Runs -/

/-- Every request of the post respects the labelled groups when it is
processed. -/
def postRespects (db : Db) (post : Post) : Bool :=
  decide
    (EveryStep
      (fun current request =>
        applyRequest current post.orderId post.kitId request)
      (fun current request =>
        requestRespects post.orderId post.kitId current request = true)
      db post.requests)

/-- The post that an action processes. -/
def servedPost (kitting : Kitting) : KittingAction → Option Post
  | .serve index => kitting.posts[index]?
  | _ => none

def lockRespected (kitting : Kitting) (action : KittingAction) : Bool :=
  (servedPost kitting action).all (postRespects kitting.db)

section

variable (server : Server) (browser : Browser)

theorem requests_keepLabelled
    (orderId kitId : Int) {db : Db} {requests : List SyncRequest}
    (respects :
      EveryStep
        (fun current request => applyRequest current orderId kitId request)
        (fun current request =>
          requestRespects orderId kitId current request = true)
        db requests) :
    KeepsLabelled db
      ((syncKit orderId kitId requests).exec (perform server) db) := by
  rw [exec_syncKit]
  exact
    runActions_invariant (KeepsLabelled db)
      (fun _ _ kept respected =>
        kept.trans (applyRequest_keepsLabelled respected))
      (KeepsLabelled.refl db) respects

theorem serve_keepsLabelled
    {kitting : Kitting} {index : Nat}
    (respected : lockRespected kitting (.serve index) = true) :
    KeepsLabelled kitting.db (kitting.serve server index).db := by
  simp only [Kitting.serve]
  cases found : kitting.posts[index]? with
  | none =>
      exact KeepsLabelled.refl _
  | some post =>
      have respects : postRespects kitting.db post = true := by
        simpa [lockRespected, servedPost, found] using respected
      dsimp only
      split
      next order kit orderFound kitFound =>
        have sameOrder : order.id = post.orderId :=
          (SerialTable.mem_of_lookup orderFound).2
        have sameKit : kit.id = post.kitId := by
          have matched := List.find?_some kitFound
          simp only [decide_eq_true_eq] at matched
          exact matched.2
        rw [sameOrder, sameKit]
        exact
          requests_keepLabelled server post.orderId post.kitId
            (of_decide_eq_true respects)
      next => exact KeepsLabelled.refl _

/-- Opening a page changes no group. -/
theorem openKit_keepsLabelled
    (kitting : Kitting) (role : Role) (orderId kitId : Int)
    (loaded now : Nat) :
    KeepsLabelled kitting.db
      (kitting.openKit server role orderId kitId loaded now).db := by
  simp only [Kitting.openKit]
  split
  next order kit _ _ =>
    intro group member _
    change group ∈
      ((pageKit role order kit).exec (perform server) kitting.db).groups
    rw [(tables_pageKit server role order kit kitting.db).1]
    exact member
  next => exact KeepsLabelled.refl _

theorem step_keepsLabelled
    {kitting : Kitting} {action : KittingAction}
    (respected : lockRespected kitting action = true) :
    KeepsLabelled kitting.db (kitting.step server browser action).db := by
  cases action with
  | openKit role orderId kitId loaded now =>
      exact
        openKit_keepsLabelled server kitting role orderId kitId loaded now
  | edit page row text =>
      exact KeepsLabelled.refl _
  | click page row =>
      exact KeepsLabelled.refl _
  | tick page now =>
      change KeepsLabelled _ (kitting.tick browser page now).db
      simp only [Kitting.tick]
      split <;> exact KeepsLabelled.refl _
  | serve post =>
      exact serve_keepsLabelled server respected
  | deliver response =>
      change KeepsLabelled _ (kitting.deliver browser response).db
      simp only [Kitting.deliver]
      split <;> exact KeepsLabelled.refl _

/-- In a run in which every processed request respects the labelled groups,
a group that is labelled at some point stays as it is at every later point,
whatever the pages and the messages under way are. -/
theorem labelled_groups_kept
    (start : Kitting) (earlier later : List KittingAction)
    (respected :
      EveryStep (Kitting.step server browser)
        (fun kitting action => lockRespected kitting action = true)
        start (earlier ++ later)) :
    EveryState (Kitting.step server browser)
      (fun kitting =>
        KeepsLabelled
          (runActions (Kitting.step server browser) start earlier).db
          kitting.db)
      (runActions (Kitting.step server browser) start earlier) later := by
  obtain ⟨_, laterRespected⟩ := everyStep_append.mp respected
  exact
    everyState_invariant
      (fun kitting =>
        KeepsLabelled
          (runActions (Kitting.step server browser) start earlier).db
          kitting.db)
      (fun _ _ kept respects =>
        kept.trans (step_keepsLabelled server browser respects))
      (KeepsLabelled.refl _) laterRespected

end

/-- A kit with one complete group without a tag. -/
def countedBolts : Db :=
  { Db.bolts with
    groups :=
      [{ orderId := 1, kitId := 0, id := 0, count := 5, target := 5,
         classId := 1, tagId := none, archived := false }] }

/-- The page of the kit is opened, shows the kit, and is asked for a label. -/
def askForLabel : List KittingAction :=
  [.openKit Role.admin 1 0 0 1, .serve 0, .deliver 0, .click 0 0]

/-- The label arrives at the page before the next tick. -/
theorem labelled_groups_kept_in_turn :
    EveryState (Kitting.step Server.plain Browser.exact)
      (fun kitting =>
        KeepsLabelled
          (runActions (Kitting.step Server.plain Browser.exact)
            (Kitting.start countedBolts)
            (askForLabel ++ [.tick 0 2, .serve 0])).db
          kitting.db)
      (runActions (Kitting.step Server.plain Browser.exact)
        (Kitting.start countedBolts)
        (askForLabel ++ [.tick 0 2, .serve 0]))
      [.deliver 0, .tick 0 3, .serve 0, .deliver 0] := by
  have respected :
      EveryStep (Kitting.step Server.plain Browser.exact)
        (fun kitting action => lockRespected kitting action = true)
        (Kitting.start countedBolts)
        ((askForLabel ++ [.tick 0 2, .serve 0]) ++
          [.deliver 0, .tick 0 3, .serve 0, .deliver 0]) := by
    decide +kernel
  exact labelled_groups_kept Server.plain Browser.exact _ _ _ respected

/-- Two ticks before the first response both post the request for a label,
and the second one replaces the tag. -/
theorem labelled_group_retagged :
    isLabelled
          { orderId := 1, kitId := 0, id := 0, count := 5, target := 5,
            classId := 1, tagId := some (bytes "t1"), archived := false } =
        true ∧
      (runActions (Kitting.step Server.plain Browser.exact)
          (Kitting.start countedBolts)
          (askForLabel ++ [.tick 0 2, .tick 0 3, .serve 0])).db.groups =
        [{ orderId := 1, kitId := 0, id := 0, count := 5, target := 5,
           classId := 1, tagId := some (bytes "t1"), archived := false }] ∧
      (runActions (Kitting.step Server.plain Browser.exact)
          (Kitting.start countedBolts)
          (askForLabel ++
            [.tick 0 2, .tick 0 3, .serve 0, .serve 0])).db.groups =
        [{ orderId := 1, kitId := 0, id := 0, count := 5, target := 5,
           classId := 1, tagId := some (bytes "t2"), archived := false }] := by
  refine ⟨?_, ?_, ?_⟩
  · decide
  · decide
  · decide

end LtlsKitting.Client
