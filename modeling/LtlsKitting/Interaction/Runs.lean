import Mathlib.Data.List.Basic

/-!
# Runs of a transition function

A system is given by a total transition function on its states.  A run is the
list of the actions that are performed, in order.  Two predicates follow a run
along the states it passes through: `EveryStep` states a condition on each
state together with the action performed next, and `EveryState` states a
condition on every state the run visits, the first and the last included.

The invariant rules below are the only inductions over whole runs that the
development needs; a concrete system supplies the step.
-/

namespace LtlsKitting.Interaction

universe u v

variable {State : Type u} {Action : Type v}

/-- Perform the actions from left to right. -/
def runActions
    (step : State → Action → State) (start : State)
    (actions : List Action) : State :=
  actions.foldl step start

/-- Every action of the run is performed in a state that meets `guard`. -/
def EveryStep
    (step : State → Action → State)
    (guard : State → Action → Prop) : State → List Action → Prop
  | _, [] => True
  | current, action :: rest =>
      guard current action ∧ EveryStep step guard (step current action) rest

/-- Every state visited by the run has the property. -/
def EveryState
    (step : State → Action → State)
    (property : State → Prop) : State → List Action → Prop
  | current, [] => property current
  | current, action :: rest =>
      property current ∧
        EveryState step property (step current action) rest

/-- A run of decidable conditions is decided by following it. -/
instance EveryStep.decidable
    (step : State → Action → State) (guard : State → Action → Prop)
    [∀ current action, Decidable (guard current action)] :
    ∀ (start : State) (actions : List Action),
      Decidable (EveryStep step guard start actions)
  | _, [] => inferInstanceAs (Decidable True)
  | start, action :: rest =>
      have := EveryStep.decidable step guard (step start action) rest
      inferInstanceAs
        (Decidable
          (guard start action ∧
            EveryStep step guard (step start action) rest))

section

variable {step : State → Action → State}

@[simp]
theorem runActions_nil (start : State) :
    runActions step start [] = start := rfl

@[simp]
theorem runActions_cons
    (start : State) (action : Action) (rest : List Action) :
    runActions step start (action :: rest) =
      runActions step (step start action) rest := rfl

theorem runActions_append
    (start : State) (first second : List Action) :
    runActions step start (first ++ second) =
      runActions step (runActions step start first) second :=
  List.foldl_append

/-- A condition that is preserved by every guarded step holds at the end of
every guarded run. -/
theorem runActions_invariant
    {guard : State → Action → Prop} (invariant : State → Prop)
    (preserved :
      ∀ current action,
        invariant current → guard current action →
          invariant (step current action))
    {start : State} {actions : List Action}
    (initial : invariant start)
    (guarded : EveryStep step guard start actions) :
    invariant (runActions step start actions) := by
  induction actions generalizing start with
  | nil =>
      exact initial
  | cons action rest inductionHypothesis =>
      exact
        inductionHypothesis
          (preserved start action initial guarded.1) guarded.2

/-- The same rule for every state on the way. -/
theorem everyState_invariant
    {guard : State → Action → Prop} (invariant : State → Prop)
    (preserved :
      ∀ current action,
        invariant current → guard current action →
          invariant (step current action))
    {start : State} {actions : List Action}
    (initial : invariant start)
    (guarded : EveryStep step guard start actions) :
    EveryState step invariant start actions := by
  induction actions generalizing start with
  | nil =>
      exact initial
  | cons action rest inductionHypothesis =>
      exact
        ⟨initial,
          inductionHypothesis
            (preserved start action initial guarded.1) guarded.2⟩

theorem everyStep_of_forall
    {guard : State → Action → Prop}
    (always : ∀ current action, guard current action)
    (start : State) (actions : List Action) :
    EveryStep step guard start actions := by
  induction actions generalizing start with
  | nil =>
      trivial
  | cons action rest inductionHypothesis =>
      exact ⟨always start action, inductionHypothesis _⟩

/-- A condition on the actions alone. -/
theorem everyStep_of_mem
    {allowed : Action → Prop} {actions : List Action}
    (every : ∀ action ∈ actions, allowed action) (start : State) :
    EveryStep step (fun _ action => allowed action) start actions := by
  induction actions generalizing start with
  | nil =>
      trivial
  | cons action rest inductionHypothesis =>
      exact
        ⟨every action (List.mem_cons_self ..),
          inductionHypothesis
            (fun other member => every other (List.mem_cons_of_mem _ member))
            _⟩

/-- What an invariant says about each guarded step holds of every step of a
guarded run. -/
theorem everyStep_invariant
    {guard property : State → Action → Prop} (invariant : State → Prop)
    (preserved :
      ∀ current action,
        invariant current → guard current action →
          invariant (step current action))
    (implied :
      ∀ current action,
        invariant current → guard current action → property current action)
    {start : State} {actions : List Action}
    (initial : invariant start)
    (guarded : EveryStep step guard start actions) :
    EveryStep step property start actions := by
  induction actions generalizing start with
  | nil =>
      trivial
  | cons action rest inductionHypothesis =>
      exact
        ⟨implied start action initial guarded.1,
          inductionHypothesis
            (preserved start action initial guarded.1) guarded.2⟩

theorem everyStep_append
    {guard : State → Action → Prop} {start : State}
    {first second : List Action} :
    EveryStep step guard start (first ++ second) ↔
      EveryStep step guard start first ∧
        EveryStep step guard (runActions step start first) second := by
  induction first generalizing start with
  | nil =>
      simp [EveryStep]
  | cons action rest inductionHypothesis =>
      simp only [List.cons_append, EveryStep, runActions_cons,
        inductionHypothesis, and_assoc]

theorem EveryState.head
    {property : State → Prop} {start : State} {actions : List Action}
    (visited : EveryState step property start actions) :
    property start := by
  cases actions with
  | nil => exact visited
  | cons action rest => exact visited.1

theorem EveryState.imp
    {first second : State → Prop} {start : State} {actions : List Action}
    (visited : EveryState step first start actions)
    (weaker : ∀ current, first current → second current) :
    EveryState step second start actions := by
  induction actions generalizing start with
  | nil =>
      exact weaker start visited
  | cons action rest inductionHypothesis =>
      exact ⟨weaker start visited.1, inductionHypothesis visited.2⟩

/-- The state that a part of the run ends in is visited. -/
theorem EveryState.visited
    {property : State → Prop} {start : State} {first second : List Action}
    (visited : EveryState step property start (first ++ second)) :
    property (runActions step start first) := by
  induction first generalizing start with
  | nil =>
      exact visited.head
  | cons action rest inductionHypothesis =>
      exact inductionHypothesis visited.2

theorem EveryState.initialPart
    {property : State → Prop} {start : State} {first second : List Action}
    (visited : EveryState step property start (first ++ second)) :
    EveryState step property start first := by
  induction first generalizing start with
  | nil =>
      exact visited.head
  | cons action rest inductionHypothesis =>
      exact ⟨visited.1, inductionHypothesis visited.2⟩

/-- If, under a condition that every step keeps, the steps that preserve a
property are exactly the guarded ones, then the property holds all along a run
exactly when the run is guarded. -/
theorem everyState_iff_everyStep
    {guard : State → Action → Prop} {frame property : State → Prop}
    (framed : ∀ current action, frame current → frame (step current action))
    (exactly :
      ∀ current action, frame current → property current →
        (property (step current action) ↔ guard current action))
    {start : State} {actions : List Action}
    (initialFrame : frame start) (initial : property start) :
    EveryState step property start actions ↔
      EveryStep step guard start actions := by
  induction actions generalizing start with
  | nil =>
      exact iff_of_true initial trivial
  | cons action rest inductionHypothesis =>
      have head := exactly start action initialFrame initial
      constructor
      · rintro ⟨_, visited⟩
        have next : property (step start action) := visited.head
        exact
          ⟨head.mp next,
            (inductionHypothesis (framed start action initialFrame)
              next).mp visited⟩
      · rintro ⟨guarded, rest⟩
        exact
          ⟨initial,
            (inductionHypothesis (framed start action initialFrame)
              (head.mpr guarded)).mpr rest⟩

/-! ### Runs over the items of a list

The actions of a run come in blocks, one for each item.  If each block adds
its item to what the state holds, the run adds all of them. -/

universe w

theorem runActions_blocks
    {Item : Type w} {block : Item → List Action} {items : List Item}
    (holds : List Item → State → Prop)
    (extended :
      ∀ done item rest, done ++ item :: rest = items →
        ∀ current, holds done current →
          holds (done ++ [item]) (runActions step current (block item)))
    {start : State} (initial : holds [] start) :
    holds items (runActions step start (items.flatMap block)) := by
  have remaining :
      ∀ rest done current, done ++ rest = items → holds done current →
        holds items (runActions step current (rest.flatMap block)) := by
    intro rest
    induction rest with
    | nil =>
        intro done current complete held
        rw [List.append_nil] at complete
        rw [← complete]
        exact held
    | cons item rest inductionHypothesis =>
        intro done current complete held
        rw [List.flatMap_cons, runActions_append]
        apply inductionHypothesis (done ++ [item])
        · rw [← complete, List.append_assoc, List.singleton_append]
        · exact extended done item rest complete current held
  exact remaining items [] start (List.nil_append items) initial

theorem runActions_items
    {Item : Type w} {action : Item → Action} {items : List Item}
    (holds : List Item → State → Prop)
    (extended :
      ∀ done item rest, done ++ item :: rest = items →
        ∀ current, holds done current →
          holds (done ++ [item]) (step current (action item)))
    {start : State} (initial : holds [] start) :
    holds items (runActions step start (items.map action)) := by
  rw [List.map_eq_flatMap]
  exact runActions_blocks holds extended initial

end

/-! ## Simulation

A map between the states of two systems that commutes with their steps carries
runs to runs. -/

section Simulation

universe w

variable {Abstract : Type w}
variable {step : State → Action → State}
variable {abstractStep : Abstract → Action → Abstract}
variable {image : Abstract → State}

theorem runActions_image
    (commutes :
      ∀ current action,
        step (image current) action = image (abstractStep current action))
    (start : Abstract) (actions : List Action) :
    runActions step (image start) actions =
      image (runActions abstractStep start actions) := by
  induction actions generalizing start with
  | nil =>
      rfl
  | cons action rest inductionHypothesis =>
      rw [runActions_cons, commutes, inductionHypothesis]
      rfl

theorem everyStep_image
    (commutes :
      ∀ current action,
        step (image current) action = image (abstractStep current action))
    (guard : State → Action → Prop)
    (start : Abstract) (actions : List Action) :
    EveryStep step guard (image start) actions ↔
      EveryStep abstractStep
        (fun current action => guard (image current) action)
        start actions := by
  induction actions generalizing start with
  | nil =>
      exact Iff.rfl
  | cons action rest inductionHypothesis =>
      simp only [EveryStep]
      rw [commutes, inductionHypothesis]

theorem everyState_image
    (commutes :
      ∀ current action,
        step (image current) action = image (abstractStep current action))
    (property : State → Prop)
    (start : Abstract) (actions : List Action) :
    EveryState step property (image start) actions ↔
      EveryState abstractStep
        (fun current => property (image current)) start actions := by
  induction actions generalizing start with
  | nil =>
      exact Iff.rfl
  | cons action rest inductionHypothesis =>
      simp only [EveryState]
      rw [commutes, inductionHypothesis]

end Simulation

/-! ## Items that are shown once -/

section Showings

variable {α : Type u}

/-- What a step of a run collects, and what it shows, if it shows anything. -/
structure Showing (α : Type u) where
  collected : List α
  shown : Option (List α)
  deriving DecidableEq

/-- A step that shows something shows exactly what was collected since
something was last shown, in order. -/
def ShowsOnce : List α → List (Showing α) → Prop
  | _, [] => True
  | pending, step :: rest =>
      match step.shown with
      | some page => page = pending ++ step.collected ∧ ShowsOnce [] rest
      | none => ShowsOnce (pending ++ step.collected) rest

/-- What was collected and is not shown yet. -/
def leftOver : List α → List (Showing α) → List α
  | pending, [] => pending
  | pending, step :: rest =>
      match step.shown with
      | some _ => leftOver [] rest
      | none => leftOver (pending ++ step.collected) rest

/-- Nothing is lost, repeated or exchanged: what was shown, followed by what
is left over, is what was collected. -/
theorem ShowsOnce.flatMap_shown
    {pending : List α} {steps : List (Showing α)}
    (once : ShowsOnce pending steps) :
    steps.flatMap (fun step => step.shown.getD []) ++
        leftOver pending steps =
      pending ++ steps.flatMap Showing.collected := by
  induction steps generalizing pending with
  | nil =>
      simp [leftOver]
  | cons step rest inductionHypothesis =>
      obtain ⟨collected, shown⟩ := step
      cases shown with
      | none =>
          have later := inductionHypothesis once
          simpa [leftOver, List.append_assoc] using later
      | some page =>
          obtain ⟨isPage, others⟩ := once
          have later := inductionHypothesis others
          simp only [List.flatMap_cons, Option.getD_some, isPage]
          simpa [leftOver] using later

end Showings

end LtlsKitting.Interaction
