import LtlsKitting.Operations.Loading
import LtlsKitting.Web.Pages

/-!
# The store along whole runs

Scripts, synchronisations and views of kit pages, one after the other, from a
store without orders.  The store stays consistent, and as long as the item
lines of the latest script do not use a tag twice, no two groups carry the
same tag.
-/

namespace LtlsKitting.Web

open LtlsKitting.Php LtlsKitting.Store LtlsKitting.Operations
open LtlsKitting.Sync LtlsKitting.Interaction LtlsKitting.Relational

/-- What changes the store. -/
inductive StoreAction where
  | script (code : Param)
  | sync (orderId kitId : Option Param) (requests : List SyncRequest)
  | viewKit (role : Role) (orderId kitId : Option Param)

/-- Continue with the order and the kit that the request names. -/
def withKit
    {α : Type} (orderId kitId : Option Param) (otherwise : α)
    (following : OrderRow → KitRow → Php α) : Php α := do
  let current ← selectCurrent orderId kitId
  match current with
  | (some order, some kit) => following order kit
  | _ => pure otherwise

/-- The store after an action. -/
def StoreAction.exec (server : Server) (db : Db) : StoreAction → Db
  | .script code => (initScript [] code).exec (perform server) db
  | .sync orderId kitId requests =>
      (withKit orderId kitId []
        (fun order kit => syncKit order.id kit.id requests)).exec
        (perform server) db
  | .viewKit role orderId kitId =>
      (withKit orderId kitId .nothing (pageKit role)).exec
        (perform server) db

/-- The store together with the lines of the latest script. -/
structure StoreState where
  db : Db
  latest : List Bytes

def StoreState.step
    (server : Server) (state : StoreState) (action : StoreAction) :
    StoreState where
  db := action.exec server state.db
  latest :=
    match action with
    | .script code => codeLines code
    | _ => state.latest

/-- The store is consistent, and tags are distinct if the latest script uses
them at most once. -/
structure Sound (state : StoreState) : Prop where
  consistent : state.db.Consistent
  distinct :
    (itemTags (some .inventory) state.latest).Nodup → state.db.TagsDistinct

/-! ## Synchronisations -/

section

variable {db : Db}

theorem label_sound
    (consistent : db.Consistent) (key : GroupKey) (tag : Bool) :
    (label db key tag).Consistent ∧
      (db.TagsDistinct → (label db key tag).TagsDistinct) := by
  cases tag with
  | false =>
      exact ⟨consistent, id⟩
  | true =>
      change
        (db.setTag key db.freeTag).Consistent ∧
          (db.TagsDistinct → (db.setTag key db.freeTag).TagsDistinct)
      cases free : db.freeTag with
      | none =>
          refine ⟨consistent.setTag key none (fun _ given => ?_), ?_⟩
          · cases given
          · intro distinct
            exact
              Db.tagsDistinct_setTag_none consistent.groupsIdentified
                distinct key
      | some tag =>
          obtain ⟨known, unused⟩ := Db.freeTag_spec free
          constructor
          · apply consistent.setTag key (some tag)
            intro value given
            rw [← Option.some.inj given]
            exact known
          · intro distinct
            rw [Db.tagsDistinct_setTag_iff consistent.groupsIdentified
              distinct]
            intro group _ _ _ other otherMember carried
            exact absurd carried (unused other otherMember)

theorem withdraw_sound
    (consistent : db.Consistent) (key : GroupKey) (value : Int) :
    (withdraw db key value).Consistent ∧
      (db.TagsDistinct → (withdraw db key value).TagsDistinct) := by
  have taken := consistent.takeStock key value
  simp only [withdraw]
  split
  · refine ⟨taken.setCount key value, ?_⟩
    intro distinct
    rw [Db.tagsDistinct_setCount]
    exact distinct
  · exact ⟨taken, id⟩

theorem applyRequest_sound
    (consistent : db.Consistent) (orderId kitId : Int)
    (request : SyncRequest) :
    (applyRequest db orderId kitId request).Consistent ∧
      (db.TagsDistinct →
        (applyRequest db orderId kitId request).TagsDistinct) := by
  cases request with
  | status status =>
      exact ⟨consistent.setStatus orderId kitId status, id⟩
  | row groupId value tag =>
      have withdrawn :=
        withdraw_sound consistent ⟨orderId, kitId, groupId⟩ value
      have labelled :=
        label_sound withdrawn.1 ⟨orderId, kitId, groupId⟩ tag
      exact
        ⟨labelled.1, fun distinct => labelled.2 (withdrawn.2 distinct)⟩

theorem syncKit_sound
    (server : Server) (consistent : db.Consistent) (orderId kitId : Int)
    (requests : List SyncRequest) :
    ((syncKit orderId kitId requests).exec (perform server) db).Consistent ∧
      (db.TagsDistinct →
        ((syncKit orderId kitId requests).exec
          (perform server) db).TagsDistinct) := by
  rw [exec_syncKit]
  induction requests generalizing db with
  | nil =>
      exact ⟨consistent, id⟩
  | cons request rest inductionHypothesis =>
      have first := applyRequest_sound consistent orderId kitId request
      have later := inductionHypothesis first.1
      exact ⟨later.1, fun distinct => later.2 (first.2 distinct)⟩

/-- Opening a kit page changes the users of kits only. -/
theorem pageKit_sound
    (server : Server) (consistent : db.Consistent) (role : Role)
    (order : OrderRow) (kit : KitRow) :
    ((pageKit role order kit).exec (perform server) db).Consistent ∧
      (db.TagsDistinct →
        ((pageKit role order kit).exec
          (perform server) db).TagsDistinct) := by
  rw [exec_pageKit]
  split
  · exact ⟨consistent, id⟩
  · exact ⟨consistent.assignKit role.id kit.id, id⟩

/-- Looking up the order and the kit changes nothing. -/
theorem withKit_sound
    (server : Server) (consistent : db.Consistent)
    {α : Type} (orderId kitId : Option Param) (otherwise : α)
    {following : OrderRow → KitRow → Php α}
    (sound :
      ∀ order kit,
        ((following order kit).exec (perform server) db).Consistent ∧
          (db.TagsDistinct →
            ((following order kit).exec (perform server) db).TagsDistinct)) :
    ((withKit orderId kitId otherwise following).exec
        (perform server) db).Consistent ∧
      (db.TagsDistinct →
        ((withKit orderId kitId otherwise following).exec
          (perform server) db).TagsDistinct) := by
  simp only [withKit]
  rw [Program.exec_bind,
    exec_of_reads (selectCurrent_reads orderId kitId) server db]
  split
  · exact sound _ _
  · exact ⟨consistent, id⟩

end

/-! ## Runs -/

theorem script_sound
    (server : Server) (db : Db) (code : Param) :
    Sound
      { db := (initScript [] code).exec (perform server) db
        latest := codeLines code } := by
  obtain ⟨consistent, new, sublist, grown⟩ :=
    @lines_consistent server db.truncate (Db.consistent_empty db.users)
      (LoopState.start []) (codeLines code)
  rw [exec_initScript]
  refine ⟨consistent, ?_⟩
  intro once
  change List.Nodup (Db.groupTags _)
  rw [grown]
  exact once.sublist sublist

theorem step_sound
    (server : Server) {state : StoreState} (sound : Sound state)
    (action : StoreAction) : Sound (state.step server action) := by
  cases action with
  | script code =>
      exact script_sound server state.db code
  | sync orderId kitId requests =>
      have kept :=
        withKit_sound server sound.consistent orderId kitId []
          (fun order kit =>
            syncKit_sound server sound.consistent order.id kit.id requests)
      exact ⟨kept.1, fun once => kept.2 (sound.distinct once)⟩
  | viewKit role orderId kitId =>
      have kept :=
        withKit_sound server sound.consistent orderId kitId .nothing
          (fun order kit =>
            pageKit_sound server sound.consistent role order kit)
      exact ⟨kept.1, fun once => kept.2 (sound.distinct once)⟩

/-- Every state that a run passes through is sound: scripts of any text,
synchronisations and views of kit pages in any order, from a store without
orders and with any users. -/
theorem run_sound
    (server : Server) (users : SerialTable UserRow.id)
    (actions : List StoreAction) :
    EveryState (StoreState.step server) Sound
      ⟨{ Db.empty with users := users }, []⟩ actions := by
  have initial : Sound ⟨{ Db.empty with users := users }, []⟩ :=
    ⟨Db.consistent_empty users, fun _ => List.nodup_nil⟩
  exact
    everyState_invariant Sound
      (fun _ action sound _ => step_sound server sound action) initial
      (everyStep_of_forall (fun _ _ => trivial) _ actions)

end LtlsKitting.Web
