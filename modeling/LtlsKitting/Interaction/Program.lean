import LtlsKitting.Interaction.Runs

/-!
# Programs over atomic calls

A program issues calls to its environment one at a time and continues with
the answer.  The environment is a handler, a state transformer for each call.
The same program text is given two meanings: `Program.run` executes it without
interruption, and `Interleaving` executes several programs against one shared
state, switching between them after every call.
-/

namespace LtlsKitting.Interaction

universe u

/-- A program with calls in `S`; the call `request` is answered by a value of
type `R request`. -/
inductive Program (S : Type) (R : S → Type) (α : Type) : Type where
  | done (value : α)
  | call (request : S) (next : R request → Program S R α)

/-- An environment that answers each call and changes its state. -/
abbrev Handler (S : Type) (R : S → Type) (σ : Type) :=
  (request : S) → σ → R request × σ

namespace Program

variable {S : Type} {R : S → Type} {α β γ σ : Type}

/-- Sequential composition. -/
def bind : Program S R α → (α → Program S R β) → Program S R β
  | done value, following => following value
  | call request next, following =>
      call request (fun answer => (next answer).bind following)

instance : Monad (Program S R) where
  pure := done
  bind := bind

/-- The program that issues one call and returns its answer. -/
def issue (request : S) : Program S R (R request) :=
  call request done

@[simp]
theorem call_bind
    (request : S) (next : R request → Program S R α)
    (following : α → Program S R β) :
    (call request next >>= following) =
      call request (fun answer => next answer >>= following) := rfl

theorem bind_bind
    (program : Program S R α) (first : α → Program S R β)
    (second : β → Program S R γ) :
    ((program >>= first) >>= second) =
      (program >>= fun value => first value >>= second) := by
  induction program with
  | done value =>
      rfl
  | call request next inductionHypothesis =>
      simp only [call_bind]
      congr 1
      funext answer
      exact inductionHypothesis answer

/-- Execute a program without interruption. -/
def run (handler : Handler S R σ) : Program S R α → σ → α × σ
  | done value, state => (value, state)
  | call request next, state =>
      (next (handler request state).1).run handler
        (handler request state).2

/-- The state after an uninterrupted execution. -/
def exec (handler : Handler S R σ) (program : Program S R α) (state : σ) : σ :=
  (program.run handler state).2

/-- The value returned by an uninterrupted execution. -/
def eval (handler : Handler S R σ) (program : Program S R α) (state : σ) : α :=
  (program.run handler state).1

/-- The calls issued by an uninterrupted execution, in order. -/
def trace (handler : Handler S R σ) : Program S R α → σ → List S
  | done _, _ => []
  | call request next, state =>
      request ::
        (next (handler request state).1).trace handler
          (handler request state).2

section

variable (handler : Handler S R σ)

@[simp]
theorem trace_pure (value : α) (state : σ) :
    (pure value : Program S R α).trace handler state = [] := rfl

theorem run_bind
    (program : Program S R α) (following : α → Program S R β)
    (state : σ) :
    (program >>= following).run handler state =
      (following (program.run handler state).1).run handler
        (program.run handler state).2 := by
  induction program generalizing state with
  | done value =>
      rfl
  | call request next inductionHypothesis =>
      exact inductionHypothesis _ _

theorem exec_bind
    (program : Program S R α) (following : α → Program S R β)
    (state : σ) :
    (program >>= following).exec handler state =
      (following (program.eval handler state)).exec handler
        (program.exec handler state) :=
  congrArg Prod.snd (run_bind handler program following state)

theorem eval_bind
    (program : Program S R α) (following : α → Program S R β)
    (state : σ) :
    (program >>= following).eval handler state =
      (following (program.eval handler state)).eval handler
        (program.exec handler state) :=
  congrArg Prod.fst (run_bind handler program following state)

theorem trace_bind
    (program : Program S R α) (following : α → Program S R β)
    (state : σ) :
    (program >>= following).trace handler state =
      program.trace handler state ++
        (following (program.eval handler state)).trace handler
          (program.exec handler state) := by
  induction program generalizing state with
  | done value =>
      rfl
  | call request next inductionHypothesis =>
      exact congrArg (List.cons request) (inductionHypothesis _ _)

end

/-- Every call on every branch of the program is allowed, whatever the
environment answers. -/
def Issues (allowed : S → Prop) : Program S R α → Prop
  | done _ => True
  | call request next =>
      allowed request ∧ ∀ answer, (next answer).Issues allowed

theorem issues_pure (allowed : S → Prop) (value : α) :
    (pure value : Program S R α).Issues allowed := trivial

theorem issues_issue
    {allowed : S → Prop} {request : S} (permitted : allowed request) :
    (issue request : Program S R (R request)).Issues allowed :=
  ⟨permitted, fun _ => trivial⟩

theorem issues_bind
    {allowed : S → Prop}
    {program : Program S R α} {following : α → Program S R β}
    (first : program.Issues allowed)
    (second : ∀ value, (following value).Issues allowed) :
    (program >>= following).Issues allowed := by
  induction program with
  | done value =>
      exact second value
  | call request next inductionHypothesis =>
      exact
        ⟨first.1, fun answer => inductionHypothesis answer (first.2 answer)⟩

theorem Issues.imp
    {first second : S → Prop} {program : Program S R α}
    (issues : program.Issues first)
    (weaker : ∀ request, first request → second request) :
    program.Issues second := by
  induction program with
  | done value =>
      trivial
  | call request next inductionHypothesis =>
      exact
        ⟨weaker request issues.1,
          fun answer => inductionHypothesis answer (issues.2 answer)⟩

/-- What is never issued on any branch does not occur in a trace. -/
theorem Issues.trace
    {allowed : S → Prop} {program : Program S R α}
    (issues : program.Issues allowed)
    (handler : Handler S R σ) (state : σ) :
    ∀ request ∈ program.trace handler state, allowed request := by
  induction program generalizing state with
  | done value =>
      intro request member
      cases member
  | call first next inductionHypothesis =>
      intro request member
      rcases List.mem_cons.mp member with rfl | later
      · exact issues.1
      · exact
          inductionHypothesis _ (issues.2 _) _ request later

/-- A state property kept by every allowed call is kept by a program that
issues only allowed calls. -/
theorem Issues.exec
    {allowed : S → Prop} {program : Program S R α}
    (issues : program.Issues allowed)
    {handler : Handler S R σ} {invariant : σ → Prop}
    (kept :
      ∀ request state,
        allowed request → invariant state →
          invariant (handler request state).2)
    {state : σ} (holds : invariant state) :
    invariant (program.exec handler state) := by
  induction program generalizing state with
  | done value =>
      exact holds
  | call request next inductionHypothesis =>
      exact
        inductionHypothesis _ (issues.2 _)
          (kept request state issues.1 holds)

end Program

end LtlsKitting.Interaction
