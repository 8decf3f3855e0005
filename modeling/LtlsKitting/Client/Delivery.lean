import LtlsKitting.Client.Mirror

/-!
# The order of the responses

A page numbers its requests in the order in which it issues them, the one
after loading first, and their responses arrive in any order.  A response
should be ignored if a newer one was handled before.  The handler compares the
global time of the latest request with the time at which the page was loaded,
which never changes, so it handles every response.
-/

namespace LtlsKitting.Client

open LtlsKitting.Php LtlsKitting.Store LtlsKitting.Interaction

/-- A response that has arrived, and whether its rows were written into the
table. -/
structure Answer where
  request : Nat
  goals : List Goal
  handled : Bool
  deriving DecidableEq

/-- A page, the number of its requests, and the responses that have arrived,
the latest one first. -/
structure Delivery where
  page : Page
  issued : Nat
  answers : List Answer

/-- A request is issued a moment after the previous one at the earliest. -/
inductive DeliveryAction where
  | edit (row : Nat) (text : Text)
  | click (row : Nat)
  | tick (delay : Nat)
  | respond (request : Nat) (data : List Goal)

/-- The page was loaded and has issued its first request. -/
def Delivery.loaded (orderId kitId : Int) (loaded delay : Nat) : Delivery where
  page := Page.loaded orderId kitId loaded (loaded + delay + 1)
  issued := 1
  answers := []

/-- The request was issued and is not answered. -/
def Delivery.Awaits (delivery : Delivery) (request : Nat) : Prop :=
  request < delivery.issued ∧
    ∀ answer ∈ delivery.answers, answer.request ≠ request

instance (delivery : Delivery) (request : Nat) :
    Decidable (delivery.Awaits request) :=
  inferInstanceAs
    (Decidable
      (request < delivery.issued ∧
        ∀ answer ∈ delivery.answers, answer.request ≠ request))

def deliveryStep (browser : Browser) (delivery : Delivery) :
    DeliveryAction → Delivery
  | .edit row text => { delivery with page := delivery.page.edit row text }
  | .click row => { delivery with page := delivery.page.click row }
  | .tick delay =>
      { delivery with
        page :=
          delivery.page.syncKits browser (delivery.page.timestamp + delay + 1)
        issued := delivery.issued + 1 }
  | .respond request data =>
      if delivery.Awaits request then
        { delivery with
          page := delivery.page.receive browser data
          answers :=
            ⟨request, data,
                decide (delivery.page.latestSync < delivery.page.timestamp)⟩ ::
              delivery.answers }
      else
        delivery

/-- The response that the table was last made from. -/
def Delivery.lastHandled (delivery : Delivery) : Option Answer :=
  delivery.answers.find? Answer.handled

/-- A response is ignored if the response to a newer request was handled
before.  The table shows the newest request among those answered, and its ids,
counts, tags and locks are from that response, which was handled last. -/
structure NewestShown (delivery : Delivery) : Prop where
  ignored :
    delivery.answers.Pairwise (fun later earlier =>
      earlier.handled = true → later.request < earlier.request →
        later.handled = false)
  shown :
    ∀ answer ∈ delivery.answers,
      (∀ other ∈ delivery.answers, other.request ≤ answer.request) →
        List.Forall₂ Shows answer.goals delivery.page.table
  last :
    ∀ answer ∈ delivery.lastHandled,
      ∀ other ∈ delivery.answers, other.request ≤ answer.request

/-- A response that arrives belongs to a newer request than all before. -/
def InOrder (delivery : Delivery) : DeliveryAction → Prop
  | .respond request _ =>
      delivery.Awaits request →
        ∀ answer ∈ delivery.answers, answer.request < request
  | _ => True

/-- The page has issued a request after it was loaded, and all responses were
handled. -/
structure HandlesAll (delivery : Delivery) : Prop where
  late : delivery.page.latestSync < delivery.page.timestamp
  handled : ∀ answer ∈ delivery.answers, answer.handled = true

section

variable {browser : Browser}

theorem shows_editRow {goal : Goal} {row : Row} (text : Text)
    (shows : Shows goal row) : Shows goal (editRow text row) := by
  simp only [editRow]
  split
  · exact shows
  · exact ⟨shows.1, shows.2, shows.3, shows.4, shows.5, shows.6, shows.7⟩

theorem shows_clickRow {goal : Goal} {row : Row} (shows : Shows goal row) :
    Shows goal (clickRow row) := by
  simp only [clickRow]
  split
  · exact shows
  · exact ⟨shows.1, shows.2, shows.3, shows.4, shows.5, shows.6, shows.7⟩

theorem forall₂_shows_modify
    {goals : List Goal} {table : Table} {change : Row → Row}
    (kept : ∀ goal row, Shows goal row → Shows goal (change row))
    (shows : List.Forall₂ Shows goals table) (place : Nat) :
    List.Forall₂ Shows goals (table.modify place change) := by
  induction shows generalizing place with
  | nil =>
      simp
  | cons first rest inductionHypothesis =>
      cases place with
      | zero =>
          rw [List.modify_zero_cons]
          exact List.Forall₂.cons (kept _ _ first) rest
      | succ place =>
          rw [List.modify_succ_cons]
          exact List.Forall₂.cons first (inductionHypothesis place)

/-- Every response is handled when it arrives. -/
theorem deliveryStep_respond
    {delivery : Delivery} (handles : HandlesAll delivery) {request : Nat}
    (awaits : delivery.Awaits request) (data : List Goal) :
    deliveryStep browser delivery (.respond request data) =
      { delivery with
        page :=
          { delivery.page with
            table := syncResult browser data delivery.page.table }
        answers := ⟨request, data, true⟩ :: delivery.answers } := by
  simp only [deliveryStep, awaits, if_true, Page.receive, handles.late,
    decide_true]

theorem deliveryStep_handlesAll
    {delivery : Delivery} (handles : HandlesAll delivery)
    (action : DeliveryAction) :
    HandlesAll (deliveryStep browser delivery action) := by
  cases action with
  | edit row text =>
      exact ⟨handles.late, handles.handled⟩
  | click row =>
      exact ⟨handles.late, handles.handled⟩
  | tick delay =>
      refine ⟨?_, handles.handled⟩
      have late := handles.late
      simp only [deliveryStep, Page.syncKits]
      omega
  | respond request data =>
      by_cases awaits : delivery.Awaits request
      · rw [deliveryStep_respond handles awaits]
        refine ⟨handles.late, ?_⟩
        intro answer member
        rcases List.mem_cons.mp member with latest | earlier
        · rw [latest]
        · exact handles.handled answer earlier
      · simp only [deliveryStep, awaits, if_false]
        exact handles

/-- A change of the table that keeps what the rows show. -/
theorem newestShown_of_table
    {delivery : Delivery} (newest : NewestShown delivery) {page : Page}
    (issued : Nat)
    (kept :
      ∀ goals, List.Forall₂ Shows goals delivery.page.table →
        List.Forall₂ Shows goals page.table) :
    NewestShown ⟨page, issued, delivery.answers⟩ := by
  refine ⟨newest.ignored, ?_, newest.last⟩
  intro answer member isNewest
  exact kept _ (newest.shown answer member isNewest)

/-- One step keeps the newest response in the table exactly if it does not
bring an older one. -/
theorem newestShown_step_iff
    {delivery : Delivery} (handles : HandlesAll delivery)
    (newest : NewestShown delivery) (action : DeliveryAction) :
    NewestShown (deliveryStep browser delivery action) ↔
      InOrder delivery action := by
  cases action with
  | edit row text =>
      refine iff_of_true (newestShown_of_table newest _ ?_) trivial
      intro goals shows
      exact
        forall₂_shows_modify (fun _ _ shown => shows_editRow text shown) shows
          row
  | click row =>
      refine iff_of_true (newestShown_of_table newest _ ?_) trivial
      intro goals shows
      exact
        forall₂_shows_modify (fun _ _ shown => shows_clickRow shown) shows row
  | tick delay =>
      exact
        iff_of_true (newestShown_of_table newest _ (fun _ shows => shows))
          trivial
  | respond request data =>
      by_cases awaits : delivery.Awaits request
      · rw [deliveryStep_respond handles awaits]
        constructor
        · intro newestAfter _ answer member
          have notEarlier :=
            List.rel_of_pairwise_cons newestAfter.ignored member
              (handles.handled answer member)
          have notSame := awaits.2 answer member
          simp only [Bool.true_eq_false, imp_false] at notEarlier
          omega
        · intro inOrder
          have newer := inOrder awaits
          refine ⟨List.pairwise_cons.mpr ⟨?_, newest.ignored⟩, ?_, ?_⟩
          · intro answer member _ earlier
            have later := newer answer member
            dsimp only at earlier
            omega
          · intro answer member isNewest
            rcases List.mem_cons.mp member with latest | earlier
            · rw [latest]
              exact syncResult_shows data delivery.page.table
            · have older := newer answer earlier
              have notOlder := isNewest _ (List.mem_cons_self ..)
              dsimp only at notOlder
              omega
          · intro answer isLast other member
            have isLatest : ⟨request, data, true⟩ = answer := by
              simpa [Delivery.lastHandled] using isLast
            rw [← isLatest]
            rcases List.mem_cons.mp member with latest | earlier
            · rw [latest]
            · exact le_of_lt (newer other earlier)
      · simp only [deliveryStep, awaits, if_false]
        exact iff_of_true newest (fun awaited => absurd awaited awaits)

end

/-- Along a run of a page, the table shows the newest request among those
answered, and late responses are ignored, exactly if no response is late. -/
theorem newestShown_iff
    (browser : Browser) (orderId kitId : Int) (loaded delay : Nat)
    (actions : List DeliveryAction) :
    EveryState (deliveryStep browser) NewestShown
        (Delivery.loaded orderId kitId loaded delay) actions ↔
      EveryStep (deliveryStep browser) InOrder
        (Delivery.loaded orderId kitId loaded delay) actions := by
  have handles : HandlesAll (Delivery.loaded orderId kitId loaded delay) := by
    refine ⟨?_, by simp [Delivery.loaded]⟩
    simp only [Delivery.loaded, Page.loaded]
    omega
  exact
    everyState_iff_everyStep
      (fun _ action handles => deliveryStep_handlesAll handles action)
      (fun _ action handles newest =>
        newestShown_step_iff handles newest action)
      handles
      ⟨by simp [Delivery.loaded], by simp [Delivery.loaded],
        by simp [Delivery.loaded, Delivery.lastHandled]⟩

/-- The response to the first request arrives after the one to the second
request and is written over it. -/
theorem late_response_handled :
    ¬ EveryState (deliveryStep Browser.exact) NewestShown
        (Delivery.loaded 1 1 0 0)
        [.tick 749, .respond 1 [boltGoal 0 5 5 none],
          .respond 0 [boltGoal 0 0 10 none]] := by
  intro visited
  have last :=
    @EveryState.visited _ DeliveryAction _ _ (Delivery.loaded 1 1 0 0)
      [.tick 749, .respond 1 [boltGoal 0 5 5 none],
        .respond 0 [boltGoal 0 0 10 none]] [] visited
  have pair := List.rel_of_pairwise_cons last.ignored (List.mem_cons_self ..)
  exact absurd (pair rfl (by decide)) (by decide)

end LtlsKitting.Client
