import LtlsKitting.Interaction.Program
import Mathlib.Logic.Function.Basic

/-!
# Interleaved execution of programs

Several clients run their programs against one shared store.  A schedule names
the client that issues its next call; every call is atomic, and nothing is
assumed about the order in which the clients are scheduled.

Each client carries the store on which its latest call acted.  No call reads
this record: it is a history variable, and it allows a statement about what a
client has seen to be made in the state in which the client acts on it.
-/

namespace LtlsKitting.Interaction

variable {ι S α σ : Type} {R : S → Type}

/-- The rest of a client's program and the store its latest call acted on. -/
structure Client (S : Type) (R : S → Type) (α σ : Type) where
  program : Program S R α
  seen : σ

/-- A shared store and the clients that work on it. -/
structure System (ι S : Type) (R : S → Type) (α σ : Type) where
  store : σ
  clients : ι → Client S R α σ

namespace System

/-- All clients at the start of their programs. -/
def start (store : σ) (programs : ι → Program S R α) :
    System ι S R α σ where
  store := store
  clients := fun client => ⟨programs client, store⟩

/-- The call that a client issues next, if it has not finished. -/
def nextCall (system : System ι S R α σ) (client : ι) : Option S :=
  match (system.clients client).program with
  | .done _ => none
  | .call request _ => some request

/-- The client has returned. -/
def Finished (system : System ι S R α σ) (client : ι) : Prop :=
  system.nextCall client = none

instance [DecidableEq S] (system : System ι S R α σ) (client : ι) :
    Decidable (system.Finished client) :=
  inferInstanceAs (Decidable (system.nextCall client = none))

theorem nextCall_done
    {system : System ι S R α σ} {client : ι} {value : α}
    (finished : (system.clients client).program = .done value) :
    system.nextCall client = none := by
  simp only [nextCall]
  rw [finished]

theorem nextCall_call
    {system : System ι S R α σ}
    {client : ι} {request : S} {next : R request → Program S R α}
    (running : (system.clients client).program = .call request next) :
    system.nextCall client = some request := by
  simp only [nextCall]
  rw [running]

variable [DecidableEq ι]

/-- One client issues its next call; a finished client does nothing. -/
def step
    (handler : Handler S R σ) (system : System ι S R α σ) (client : ι) :
    System ι S R α σ :=
  match (system.clients client).program with
  | .done _ => system
  | .call request next =>
      { store := (handler request system.store).2
        clients :=
          Function.update system.clients client
            ⟨next (handler request system.store).1, system.store⟩ }

/-- The calls issued along a schedule, each with the client it belongs to. -/
def issued (handler : Handler S R σ) :
    System ι S R α σ → List ι → List (ι × S)
  | _, [] => []
  | system, client :: rest =>
      ((system.nextCall client).map (Prod.mk client)).toList ++
        issued handler (system.step handler client) rest

theorem issued_cons
    (handler : Handler S R σ) (system : System ι S R α σ)
    (client : ι) (rest : List ι) :
    system.issued handler (client :: rest) =
      ((system.nextCall client).map (Prod.mk client)).toList ++
        (system.step handler client).issued handler rest := rfl

theorem step_done
    {handler : Handler S R σ} {system : System ι S R α σ}
    {client : ι} {value : α}
    (finished : (system.clients client).program = .done value) :
    system.step handler client = system := by
  simp only [step]
  rw [finished]

theorem step_call
    {handler : Handler S R σ} {system : System ι S R α σ}
    {client : ι} {request : S} {next : R request → Program S R α}
    (running : (system.clients client).program = .call request next) :
    system.step handler client =
      { store := (handler request system.store).2
        clients :=
          Function.update system.clients client
            ⟨next (handler request system.store).1, system.store⟩ } := by
  simp only [step]
  rw [running]

end System

end LtlsKitting.Interaction
