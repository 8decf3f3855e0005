import LtlsKitting.Client.Displacement
import LtlsKitting.Client.Doubles
import LtlsKitting.Client.Posting
import LtlsKitting.Sync.Refusals
import Mathlib.Algebra.Order.BigOperators.Group.List

/-!
# The sign of the counts

Neither the page nor the server checks the sign of a typed amount: a negative
amount is posted, accepted, and added to the stock.  If only amounts that are
not negative are typed, none ever appears in a post, a response or the store,
and no class ever holds more items than its stock and its groups held at the
beginning.
-/

namespace LtlsKitting.Client

open LtlsKitting.Php LtlsKitting.Store LtlsKitting.Sync LtlsKitting.Web
open LtlsKitting.Interaction LtlsKitting.Relational

/-- Not negative, and small enough for the page. -/
def Moderate (count : Int) : Prop :=
  0 ≤ count ∧ count ≤ 2 ^ 53

instance (count : Int) : Decidable (Moderate count) :=
  inferInstanceAs (Decidable (0 ≤ count ∧ count ≤ 2 ^ 53))

/-- If the text starts with an integer, it is moderate. -/
def Harmless (text : Text) : Prop :=
  ∀ value ∈ parseInt text, Moderate value

instance (text : Text) : Decidable (Harmless text) :=
  inferInstanceAs (Decidable (∀ value ∈ parseInt text, Moderate value))

/-- All inputs of a table meet a condition. -/
def InputsMeet (condition : Text → Prop) (table : Table) : Prop :=
  ∀ row ∈ table, ∀ text, inputText row = some text → condition text

/-- The user types only moderate integers, or no integers. -/
def KittingAction.TypesModerate : KittingAction → Prop
  | .edit _ _ text => Harmless text
  | _ => True

instance : ∀ action : KittingAction, Decidable action.TypesModerate
  | .edit _ _ text => inferInstanceAs (Decidable (Harmless text))
  | .openKit _ _ _ _ _ => inferInstanceAs (Decidable True)
  | .click _ _ => inferInstanceAs (Decidable True)
  | .tick _ _ => inferInstanceAs (Decidable True)
  | .serve _ => inferInstanceAs (Decidable True)
  | .deliver _ => inferInstanceAs (Decidable True)

/-- A request that asks for a moderate count, or for no count. -/
def ModerateRequest : SyncRequest → Prop
  | .row _ value _ => Moderate value
  | .status _ => True

/-- All counts are moderate: those of the store, those that are shown, and
those under way. -/
structure AllModerate (kitting : Kitting) : Prop where
  groups : ∀ group ∈ kitting.db.groups, Moderate group.count
  inputs : ∀ page ∈ kitting.pages, InputsMeet Harmless page.table
  posts :
    ∀ post ∈ kitting.posts, ∀ request ∈ post.requests, ModerateRequest request
  responses :
    ∀ response ∈ kitting.responses, ∀ goal ∈ response.goals,
      Moderate goal.count

theorem Moderate.safe {count : Int} (moderate : Moderate count) :
    Safe count := by
  simp only [Moderate] at moderate
  simp only [Safe]
  omega

theorem harmless_numeral {count : Int} (moderate : Moderate count) :
    Harmless (numeral count) := by
  intro value read
  rw [parseInt_numeral, Option.mem_some_iff] at read
  rw [← read]
  exact moderate

/-! ## What the page shows -/

section

variable {browser : Browser} {condition : Text → Prop}

theorem inputsMeet_modify
    {table : Table} (meet : InputsMeet condition table) (place : Nat)
    {change : Row → Row}
    (kept :
      ∀ row text, inputText (change row) = some text →
        condition text ∨ inputText row = some text) :
    InputsMeet condition (table.modify place change) := by
  intro row member text shown
  obtain ⟨i, present⟩ := List.getElem?_of_mem member
  rw [List.getElem?_modify] at present
  obtain ⟨source, stood, changed⟩ := Option.map_eq_some_iff.mp present
  have sourceMeets := meet source (List.mem_of_getElem? stood) text
  split at changed
  · rw [← changed] at shown
    rcases kept source text shown with typed | before
    · exact typed
    · exact sourceMeets before
  · rw [← changed] at shown
    exact sourceMeets shown

theorem inputText_editRow
    {typed text : Text} {row : Row}
    (shown : inputText (editRow typed row) = some text) : typed = text := by
  cases cells : row.cells with
  | locked count tag archived =>
      simp [editRow, cells, inputText] at shown
  | unlocked value disabled requested =>
      simpa [editRow, cells, inputText] using shown

theorem inputText_clickRow (row : Row) :
    inputText (clickRow row) = inputText row := by
  cases cells : row.cells with
  | locked count tag archived =>
      simp [clickRow, cells]
  | unlocked value disabled requested =>
      simp [clickRow, cells, inputText]

/-- The condition holds of the texts that the goal can be shown as. -/
def MeetsGoal
    (browser : Browser) (condition : Text → Prop) (goal : Goal) : Prop :=
  condition (numeral goal.count) ∧ condition (browser.shown goal.count)

theorem inputText_newTr {goal : Goal} {text : Text}
    (meets : MeetsGoal browser condition goal)
    (shown : inputText (newTr goal) = some text) : condition text := by
  cases tagged : goalTag goal with
  | some tag =>
      simp [newTr, newCells, tagged, inputText] at shown
  | none =>
      have counted : numeral goal.count = text := by
        simpa [newTr, newCells, tagged, inputText] using shown
      rw [← counted]
      exact meets.1

theorem inputText_settleTr {goal : Goal} {row : Row} {text : Text}
    (meets : MeetsGoal browser condition goal)
    (typed : ∀ before, inputText row = some before → condition before)
    (shown : inputText (settleTr browser goal row) = some text) :
    condition text := by
  by_cases passes : goalTag goal = none ∧ (inputText row).isSome
  · obtain ⟨before, isBefore⟩ := Option.isSome_iff_exists.mp passes.2
    rw [(settleTr_of_open passes.1 isBefore).2, Option.some.injEq,
      overrideInput_eq] at shown
    rw [← shown]
    split
    · exact typed before isBefore
    · split
      · exact meets.2
      · exact typed before isBefore
  · rw [settleTr_of_closed passes] at shown
    exact inputText_newTr meets shown

theorem inputsMeet_cons {row : Row} {rows : Table} :
    InputsMeet condition (row :: rows) ↔
      (∀ text, inputText row = some text → condition text) ∧
        InputsMeet condition rows :=
  List.forall_mem_cons

theorem walk_inputsMeet {rows : Table} {goals : List Goal}
    (meets : ∀ goal ∈ goals, MeetsGoal browser condition goal)
    (typed : InputsMeet condition rows) :
    InputsMeet condition (walk browser rows goals) := by
  induction goals generalizing rows with
  | nil =>
      intro row member
      simp [walk] at member
  | cons goal goals inductionHypothesis =>
      obtain ⟨first, later⟩ := List.forall_mem_cons.mp meets
      have new : ∀ text, inputText (newTr goal) = some text → condition text :=
        fun _ shown => inputText_newTr first shown
      cases rows with
      | nil =>
          rw [walk]
          exact inputsMeet_cons.mpr ⟨new, inductionHypothesis later typed⟩
      | cons front rows =>
          obtain ⟨frontTyped, restTyped⟩ := inputsMeet_cons.mp typed
          have settled :
              ∀ text, inputText (settleTr browser goal front) = some text →
                condition text :=
            fun _ shown => inputText_settleTr first frontTyped shown
          rw [walk]
          split
          · exact
              inputsMeet_cons.mpr
                ⟨settled, inductionHypothesis later restTyped⟩
          · exact
              inputsMeet_cons.mpr
                ⟨new,
                  inductionHypothesis later
                    (inputsMeet_cons.mpr ⟨settled, restTyped⟩)⟩

/-- The inputs after a response meet what the inputs before and the counts of
the response meet. -/
theorem syncResult_inputsMeet {table : Table} {data : List Goal}
    (meets : ∀ goal ∈ data, MeetsGoal browser condition goal)
    (typed : InputsMeet condition table) :
    InputsMeet condition (syncResult browser data table) := by
  cases data with
  | nil =>
      rw [syncResult_of_empty_response]
      intro row member
      cases member
  | cons goal goals =>
      obtain ⟨first, later⟩ := List.forall_mem_cons.mp meets
      have new : ∀ text, inputText (newTr goal) = some text → condition text :=
        fun _ shown => inputText_newTr first shown
      rw [syncResult_cons]
      cases table with
      | nil =>
          exact inputsMeet_cons.mpr ⟨new, walk_inputsMeet later typed⟩
      | cons row rows =>
          obtain ⟨rowTyped, rowsTyped⟩ := inputsMeet_cons.mp typed
          refine
            inputsMeet_cons.mpr
              ⟨fun _ shown => inputText_settleTr first rowTyped shown,
                walk_inputsMeet later ?_⟩
          split
          · exact rowsTyped
          · intro other member text shown
            rcases List.mem_append.mp member with old | added
            · exact rowsTyped other old text shown
            · rw [List.mem_singleton.mp added] at shown
              exact new text shown

end

/-! ## What is posted and stored -/

section

variable {browser : Browser}

/-- A table with harmless inputs posts moderate requests. -/
theorem postedRequests_moderate {table : Table}
    (harmless : InputsMeet Harmless table) :
    ∀ request ∈ postedRequests browser table, ModerateRequest request := by
  rw [postedRequests_eq]
  intro request member
  rcases List.mem_append.mp member with ofRow | ofStatus
  · obtain ⟨row, rowMember, decoded⟩ := List.mem_filterMap.mp ofRow
    cases typed : inputText row with
    | none =>
        rw [rowRequest_of_locked typed] at decoded
        cases decoded
    | some text =>
        cases read : parseInt text with
        | none =>
            rw [rowRequest_of_unread typed read] at decoded
            cases decoded
        | some value =>
            have moderate := harmless row rowMember text typed value read
            rw [rowRequest_eq_of_read typed read moderate.safe] at decoded
            split at decoded
            · rw [← Option.some.inj decoded]
              exact moderate
            · cases decoded
  · simp only [statusRequests] at ofStatus
    split at ofStatus
    · cases ofStatus
    · rw [List.mem_singleton.mp ofStatus]
      trivial

theorem applyRequest_moderate {db : Db} {orderId kitId : Int}
    {request : SyncRequest} (moderate : ModerateRequest request)
    (groups : ∀ group ∈ db.groups, Moderate group.count) :
    ∀ group ∈ (applyRequest db orderId kitId request).groups,
      Moderate group.count := by
  cases request with
  | status status =>
      exact groups
  | row id value tag =>
      have withdrawn :
          ∀ group ∈ (withdraw db ⟨orderId, kitId, id⟩ value).groups,
            Moderate group.count := by
        intro group member
        by_cases accepted : db.Accepts ⟨orderId, kitId, id⟩ value
        · obtain ⟨source, sourceMember, changed, unchanged⟩ :=
            mem_groups_withdraw accepted member
          by_cases addressed : source.key = ⟨orderId, kitId, id⟩
          · rw [changed addressed]
            exact moderate
          · rw [unchanged addressed]
            exact groups source sourceMember
        · rw [withdraw_of_not_accepts accepted] at member
          exact groups group member
      cases tag with
      | false =>
          exact withdrawn
      | true =>
          intro group member
          obtain ⟨source, sourceMember, changed⟩ :=
            mem_updateWhere.mp member
          have counted := withdrawn source sourceMember
          rw [← changed]
          split <;> exact counted

theorem kitGoals_moderate {db : Db} {orderId kitId : Int}
    (groups : ∀ group ∈ db.groups, Moderate group.count) :
    ∀ goal ∈ db.kitGoals orderId kitId, Moderate goal.count := by
  intro goal member
  simp only [Db.kitGoals, List.mem_insertionSort, List.mem_map,
    List.mem_filter] at member
  obtain ⟨group, ⟨groupMember, _⟩, isGoal⟩ := member
  rw [← isGoal]
  exact groups group groupMember

theorem step_groups_moderate
    (server : Server) {kitting : Kitting} (all : AllModerate kitting)
    (action : KittingAction) :
    ∀ group ∈ (kitting.step server browser action).db.groups,
      Moderate group.count := by
  rcases kitting.step_store server browser action with
    same | ⟨post, member, orderId, kitId, served⟩
  · rw [same.1]
    exact all.groups
  · rw [served]
    exact
      runActions_invariant
        (fun db : Db => ∀ group ∈ db.groups, Moderate group.count)
        (fun _ _ groups moderate => applyRequest_moderate moderate groups)
        all.groups (everyStep_of_mem (all.posts post member) kitting.db)

/-- A change of one page that keeps its inputs harmless. -/
theorem inputsMeet_modify_page
    {pages : List Page}
    (inputs : ∀ page ∈ pages, InputsMeet Harmless page.table) (place : Nat)
    {change : Page → Page}
    (kept :
      ∀ page, InputsMeet Harmless page.table →
        InputsMeet Harmless (change page).table) :
    ∀ page ∈ pages.modify place change, InputsMeet Harmless page.table := by
  intro page member
  obtain ⟨i, present⟩ := List.getElem?_of_mem member
  rw [List.getElem?_modify] at present
  obtain ⟨source, stood, changed⟩ := Option.map_eq_some_iff.mp present
  have sourceMeets := inputs source (List.mem_of_getElem? stood)
  rw [← changed]
  split
  · exact kept source sourceMeets
  · exact sourceMeets

theorem openKit_allModerate
    {server : Server} {kitting : Kitting} (all : AllModerate kitting)
    {role : Role} {orderId kitId : Int} {loaded now : Nat}
    (groups :
      ∀ group ∈
          (kitting.openKit server role orderId kitId loaded now).db.groups,
        Moderate group.count) :
    AllModerate (kitting.openKit server role orderId kitId loaded now) := by
  simp only [Kitting.openKit] at groups ⊢
  split
  next order kit orderFound kitFound =>
    rw [orderFound, kitFound] at groups
    refine ⟨groups, ?_, ?_, all.responses⟩
    · intro page member
      rcases List.mem_append.mp member with old | opened
      · exact all.inputs page old
      · rw [List.mem_singleton.mp opened]
        intro row rowMember
        cases rowMember
    · intro post member
      rcases List.mem_append.mp member with old | opened
      · exact all.posts post old
      · rw [List.mem_singleton.mp opened]
        intro request requestMember
        cases requestMember
  next =>
    exact all

theorem tick_allModerate
    {kitting : Kitting} (all : AllModerate kitting) (page now : Nat) :
    AllModerate (kitting.tick browser page now) := by
  simp only [Kitting.tick]
  cases found : kitting.pages[page]? with
  | none =>
      exact all
  | some current =>
      have harmless := all.inputs current (List.mem_of_getElem? found)
      refine ⟨all.groups, ?_, ?_, all.responses⟩
      · intro other member
        rcases List.mem_or_eq_of_mem_set member with old | changed
        · exact all.inputs other old
        · rw [changed]
          exact harmless
      · intro post member
        rcases List.mem_append.mp member with old | posted
        · exact all.posts post old
        · rw [List.mem_singleton.mp posted]
          exact postedRequests_moderate harmless

theorem serve_allModerate
    {server : Server} {kitting : Kitting} (all : AllModerate kitting)
    {index : Nat}
    (groups :
      ∀ group ∈ (kitting.serve server index).db.groups,
        Moderate group.count) :
    AllModerate (kitting.serve server index) := by
  simp only [Kitting.serve] at groups ⊢
  have fewer :
      ∀ post ∈ kitting.posts.eraseIdx index, ∀ request ∈ post.requests,
        ModerateRequest request :=
    fun post member => all.posts post (List.mem_of_mem_eraseIdx member)
  cases found : kitting.posts[index]? with
  | none =>
      exact all
  | some post =>
      rw [found] at groups
      dsimp only at groups ⊢
      split
      next order kit orderFound kitFound =>
        rw [orderFound, kitFound] at groups
        refine ⟨groups, all.inputs, fewer, ?_⟩
        intro response member
        rcases List.mem_append.mp member with old | answered
        · exact all.responses response old
        · rw [List.mem_singleton.mp answered]
          simp only [syncKit]
          rw [Program.eval_bind]
          apply kitGoals_moderate
          rw [exec_requestsLoop, ← exec_syncKit server]
          exact groups
      next =>
        exact ⟨all.groups, all.inputs, fewer, all.responses⟩

theorem deliver_allModerate
    {kitting : Kitting} (all : AllModerate kitting) (index : Nat) :
    AllModerate (kitting.deliver browser index) := by
  simp only [Kitting.deliver]
  cases found : kitting.responses[index]? with
  | none =>
      exact all
  | some response =>
      have goals := all.responses response (List.mem_of_getElem? found)
      refine
        ⟨all.groups, inputsMeet_modify_page all.inputs response.page ?_,
          all.posts, ?_⟩
      · intro current meets
        simp only [Page.receive]
        split
        · apply syncResult_inputsMeet _ meets
          intro goal member
          have moderate := goals goal member
          refine ⟨harmless_numeral moderate, ?_⟩
          rw [browser.shown_safe goal.count moderate.safe]
          exact harmless_numeral moderate
        · exact meets
      · intro other member
        exact all.responses other (List.mem_of_mem_eraseIdx member)

theorem step_allModerate
    (server : Server) {kitting : Kitting} (all : AllModerate kitting)
    {action : KittingAction} (types : action.TypesModerate) :
    AllModerate (kitting.step server browser action) := by
  have groups := @step_groups_moderate browser server kitting all action
  cases action with
  | openKit role orderId kitId loaded now =>
      exact openKit_allModerate all groups
  | edit page row text =>
      refine
        ⟨all.groups, inputsMeet_modify_page all.inputs page ?_, all.posts,
          all.responses⟩
      intro current meets
      apply inputsMeet_modify meets
      intro source shownText shown
      left
      rw [← inputText_editRow shown]
      exact types
  | click page row =>
      refine
        ⟨all.groups, inputsMeet_modify_page all.inputs page ?_, all.posts,
          all.responses⟩
      intro current meets
      apply inputsMeet_modify meets
      intro source shownText shown
      right
      rw [← inputText_clickRow]
      exact shown
  | tick page now =>
      exact tick_allModerate all page now
  | serve index =>
      exact serve_allModerate all groups
  | deliver index =>
      exact deliver_allModerate all index

/-- The books stay balanced whatever is typed, if the groups are
identified. -/
theorem step_accounted
    (server : Server) {initial : Db} (identified : initial.GroupsIdentified)
    {kitting : Kitting} (accounted : Accounted initial kitting.db)
    (action : KittingAction) :
    Accounted initial (kitting.step server browser action).db := by
  rcases kitting.step_store server browser action with
    same | ⟨post, _, orderId, kitId, served⟩
  · refine ⟨?_, ?_, ?_⟩
    · simp only [Db.NonnegInventories, same.2]
      exact accounted.nonneg
    · simp only [Db.inventory, Db.withdrawn, same.1, same.2]
      exact accounted.conserved
    · rw [same.1]
      exact accounted.fixed
  · rw [served]
    exact
      runActions_invariant (Accounted initial)
        (fun _ request kept _ =>
          applyRequest_accounted identified kept orderId kitId request)
        accounted (everyStep_of_forall (fun _ _ => trivial) _ _)

end

theorem inventory_le_of_accounted
    {initial db : Db} (accounted : Accounted initial db)
    (groups : ∀ group ∈ db.groups, Moderate group.count) (classId : Int) :
    db.inventory classId ≤
      initial.inventory classId + initial.withdrawn classId := by
  have held : 0 ≤ db.withdrawn classId := by
    apply List.sum_nonneg
    intro items member
    obtain ⟨group, groupMember, rfl⟩ := List.mem_map.mp member
    have moderate := groups group groupMember
    split
    · exact moderate.1
    · exact Int.le_refl 0
  have conserved := accounted.conserved classId
  omega

/-- If nothing but integers from 0 to 2^53 is typed, counts never become
negative, and no class ever has more items than its stock and its groups had
at the beginning. -/
theorem counts_stay_nonnegative
    (server : Server) (browser : Browser) (db : Db)
    (actions : List KittingAction)
    (nonneg : db.NonnegInventories)
    (counts : ∀ group ∈ db.groups, Moderate group.count)
    (typed : ∀ action ∈ actions, action.TypesModerate) :
    EveryState (Kitting.step server browser)
      (fun kitting =>
        (∀ group ∈ kitting.db.groups, 0 ≤ group.count) ∧
          (db.GroupsIdentified →
            ∀ classId,
              kitting.db.inventory classId ≤
                db.inventory classId + db.withdrawn classId))
      (Kitting.start db) actions := by
  have initial :
      AllModerate (Kitting.start db) ∧
        (db.GroupsIdentified → Accounted db (Kitting.start db).db) := by
    refine ⟨⟨counts, ?_, ?_, ?_⟩, fun _ => ⟨nonneg, fun _ => rfl, rfl⟩⟩
    · intro page member
      cases member
    · intro post member
      cases member
    · intro response member
      cases member
  have invariant :=
    everyState_invariant
      (fun kitting =>
        AllModerate kitting ∧
          (db.GroupsIdentified → Accounted db kitting.db))
      (fun _ action kept types =>
        ⟨@step_allModerate browser server _ kept.1 action types,
          fun identified =>
            step_accounted server identified (kept.2 identified) action⟩)
      initial (everyStep_of_mem typed (Kitting.start db))
  refine invariant.imp ?_
  rintro kitting ⟨all, accounted⟩
  refine ⟨fun group member => (all.groups group member).1, ?_⟩
  intro identified classId
  exact
    inventory_le_of_accounted (accounted identified) all.groups classId

/-- A withdrawal, a text without an integer, and a return. -/
theorem counts_stay_nonnegative_bolts :
    EveryState (Kitting.step Server.plain Browser.double)
      (fun kitting =>
        (∀ group ∈ kitting.db.groups, 0 ≤ group.count) ∧
          (Db.bolts.GroupsIdentified →
            ∀ classId,
              kitting.db.inventory classId ≤
                Db.bolts.inventory classId + Db.bolts.withdrawn classId))
      (Kitting.start Db.bolts)
      [.openKit Role.admin 1 0 0 1, .serve 0, .deliver 0,
        .edit 0 0 "7".toList, .edit 0 1 "none".toList, .tick 0 2, .serve 0,
        .edit 0 0 "2".toList, .tick 0 3, .serve 0] :=
  counts_stay_nonnegative Server.plain Browser.double Db.bolts
    [.openKit Role.admin 1 0 0 1, .serve 0, .deliver 0,
      .edit 0 0 "7".toList, .edit 0 1 "none".toList, .tick 0 2, .serve 0,
      .edit 0 0 "2".toList, .tick 0 3, .serve 0]
    (by decide : ∀ row ∈ Db.bolts.classes.rows, 0 ≤ row.inventory)
    (by decide) (by decide)

/-- A negative amount is typed and posted.  Its group holds less than nothing
and its class more than there was. -/
theorem negative_count_accepted :
    (∀ group ∈ Db.bolts.groups, 0 ≤ group.count) ∧
      (∀ row ∈ Db.bolts.classes.rows, 0 ≤ row.inventory) ∧
      let kitting :=
        runActions (Kitting.step Server.plain Browser.double)
          (Kitting.start Db.bolts)
          [.openKit Role.admin 1 0 0 1, .serve 0, .deliver 0,
            .edit 0 0 "-5".toList, .tick 0 2, .serve 0]
      (∃ group ∈ kitting.db.groups, group.count < 0) ∧
        Db.bolts.inventory 1 + Db.bolts.withdrawn 1 <
          kitting.db.inventory 1 := by
  refine ⟨by decide, by decide, ?_⟩
  decide

end LtlsKitting.Client
