import LtlsKitting.Interaction.Interleaving
import Mathlib.Logic.Relation

/-!
# Programs among others

A program that runs among others meets, at each of its calls, a state that the
others may have changed since its last call.  `Tolerates` describes such a
program by two relations: what the others may do to the state between two of
its calls, and what its own calls do.  If every client of a system tolerates
what the other clients do, then all of them do it along every schedule.
-/

namespace LtlsKitting.Interaction

variable {ι S α β σ : Type} {R : S → Type}

/-- The second state is the first one after any number of steps of others. -/
abbrev Reaches (others : σ → σ → Prop) : σ → σ → Prop :=
  Relation.ReflTransGen others

namespace Program

/-- Whatever the others do, the calls of the program do what `own` allows, and
what it returns is related to the state by `after`, from then on. -/
def Tolerates
    (handler : Handler S R σ) (others own : σ → σ → Prop)
    (after : α → σ → Prop) : Program S R α → σ → Prop
  | done value, state =>
      ∀ current, Reaches others state current → after value current
  | call request next, state =>
      ∀ current, Reaches others state current →
        own current (handler request current).2 ∧
          (next (handler request current).1).Tolerates handler others own
            after (handler request current).2

section

variable {handler : Handler S R σ} {others own : σ → σ → Prop}
variable {after : α → σ → Prop} {state : σ}

/-- Steps of others do not matter. -/
theorem Tolerates.stable
    {program : Program S R α} {current : σ}
    (tolerates : program.Tolerates handler others own after state)
    (moved : Reaches others state current) :
    program.Tolerates handler others own after current := by
  cases program with
  | done value =>
      exact fun later reached => tolerates later (moved.trans reached)
  | call request next =>
      exact fun later reached => tolerates later (moved.trans reached)

theorem tolerates_pure
    {value : α}
    (holds : ∀ current, Reaches others state current → after value current) :
    (pure value : Program S R α).Tolerates handler others own after state :=
  holds

/-- One call, and what is known of its answer as long as others work. -/
theorem tolerates_issue
    {request : S} {after : R request → σ → Prop}
    (performed :
      ∀ current, Reaches others state current →
        own current (handler request current).2 ∧
          ∀ later, Reaches others (handler request current).2 later →
            after (handler request current).1 later) :
    (issue request : Program S R (R request)).Tolerates handler others own
      after state :=
  performed

/-- A program is followed by another one, which starts where the others have
led in the meantime. -/
theorem tolerates_bind
    {program : Program S R α} {following : α → Program S R β}
    {between : α → σ → Prop} {after : β → σ → Prop}
    (first : program.Tolerates handler others own between state)
    (second :
      ∀ value current, between value current →
        (following value).Tolerates handler others own after current) :
    (program >>= following).Tolerates handler others own after state := by
  induction program generalizing state with
  | done value =>
      exact second value state (first state .refl)
  | call request next inductionHypothesis =>
      intro current reached
      obtain ⟨allowed, later⟩ := first current reached
      exact ⟨allowed, inductionHypothesis _ later⟩

/-- If every call that the program may issue does what `own` allows, in any
state, others do not matter at all. -/
theorem Issues.tolerates
    {allowed : S → Prop} {program : Program S R α}
    (issues : program.Issues allowed)
    (performed :
      ∀ request current, allowed request →
        own current (handler request current).2) (state : σ) :
    program.Tolerates handler others own (fun _ _ => True) state := by
  induction program generalizing state with
  | done value =>
      exact fun _ _ => trivial
  | call request next inductionHypothesis =>
      intro current _
      exact
        ⟨performed request current issues.1,
          inductionHypothesis _ (issues.2 _) _⟩

end

end Program

namespace System

variable {handler : Handler S R σ} {others own : ι → σ → σ → Prop}
variable {system : System ι S R α σ}

/-- Every client tolerates the others from the present store on. -/
def Tolerant
    (handler : Handler S R σ) (others own : ι → σ → σ → Prop)
    (system : System ι S R α σ) : Prop :=
  ∀ client,
    (system.clients client).program.Tolerates handler (others client)
      (own client) (fun _ _ => True) system.store

variable [DecidableEq ι]

/-- A step of a client does what the client may do, and the others tolerate
it. -/
theorem Tolerant.step
    (compatible :
      ∀ client other, other ≠ client → ∀ before after,
        own client before after → others other before after)
    (tolerant : system.Tolerant handler others own) (client : ι) :
    (system.step handler client).Tolerant handler others own ∧
      ((system.step handler client).store = system.store ∨
        own client system.store (system.step handler client).store) := by
  cases running : (system.clients client).program with
  | done value =>
      rw [step_done running]
      exact ⟨tolerant, Or.inl rfl⟩
  | call request next =>
      have mine := tolerant client
      rw [running] at mine
      obtain ⟨allowed, later⟩ := mine system.store .refl
      rw [step_call running]
      refine ⟨?_, Or.inr allowed⟩
      intro other
      by_cases same : other = client
      · subst same
        simpa using later
      · have moved :=
          compatible client other same system.store
            (handler request system.store).2 allowed
        have kept := (tolerant other).stable (.single moved)
        simpa [same] using kept

/-- Along every schedule each step does what its client may do. -/
theorem Tolerant.everyStep
    (compatible :
      ∀ client other, other ≠ client → ∀ before after,
        own client before after → others other before after)
    (tolerant : system.Tolerant handler others own) (schedule : List ι) :
    EveryStep (System.step handler)
      (fun current client =>
        (current.step handler client).store = current.store ∨
          own client current.store (current.step handler client).store)
      system schedule :=
  everyStep_invariant
    (fun current => current.Tolerant handler others own)
    (fun _ client holds _ => (holds.step compatible client).1)
    (fun _ client holds _ => (holds.step compatible client).2)
    tolerant (everyStep_of_forall (fun _ _ => trivial) system schedule)

/-- What all clients keep holds of the store in every state. -/
theorem Tolerant.everyState
    (compatible :
      ∀ client other, other ≠ client → ∀ before after,
        own client before after → others other before after)
    (tolerant : system.Tolerant handler others own)
    {invariant : σ → Prop}
    (kept :
      ∀ client before after, own client before after →
        invariant before → invariant after)
    (initial : invariant system.store) (schedule : List ι) :
    EveryState (System.step handler)
      (fun current => invariant current.store) system schedule := by
  have steps := tolerant.everyStep compatible schedule
  apply
    everyState_invariant (fun current => invariant current.store) _ initial
      steps
  intro current client holds moved
  rcases moved with idle | allowed
  · rw [idle]
    exact holds
  · exact kept client _ _ allowed holds

end System

end LtlsKitting.Interaction
