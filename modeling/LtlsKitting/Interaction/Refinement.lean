import LtlsKitting.Interaction.Runs

/-!
# Runs of an abstract system

An abstract system is a relation: an action may lead from a state to several
others, or to none.  `Follows` is a run of such a system.  A concrete system
refines it if each of its steps is a run of the abstract one; then a run of the
concrete system is a run of the abstract one, too.
-/

namespace LtlsKitting.Interaction

universe u v w x

variable {Abstract : Type u} {Command : Type v}
variable {State : Type w} {Action : Type x}

/-- The commands lead from the first state to the second one. -/
inductive Follows (may : Command → Abstract → Abstract → Prop) :
    List Command → Abstract → Abstract → Prop
  | nil (state : Abstract) : Follows may [] state state
  | cons {command : Command} {rest : List Command}
      {first middle last : Abstract} :
      may command first middle →
      Follows may rest middle last →
      Follows may (command :: rest) first last

section

variable {may : Command → Abstract → Abstract → Prop}
variable {first middle last : Abstract} {commands more : List Command}

theorem Follows.single {command : Command}
    (step : may command first last) : Follows may [command] first last :=
  .cons step (.nil last)

theorem Follows.append
    (leading : Follows may commands first middle)
    (trailing : Follows may more middle last) :
    Follows may (commands ++ more) first last := by
  induction leading with
  | nil state =>
      exact trailing
  | cons step _ inductionHypothesis =>
      exact .cons step (inductionHypothesis trailing)

/-- What every command keeps, a run keeps. -/
theorem Follows.invariant {holds : Abstract → Prop}
    (kept :
      ∀ command before after,
        may command before after → holds before → holds after)
    (follows : Follows may commands first last) (initial : holds first) :
    holds last := by
  induction follows with
  | nil state =>
      exact initial
  | cons step _ inductionHypothesis =>
      exact inductionHypothesis (kept _ _ _ step initial)

/-- What no command changes is the same after a run. -/
theorem Follows.same {Column : Type*} {read : Abstract → Column}
    (kept :
      ∀ command before after,
        may command before after → read after = read before)
    (follows : Follows may commands first last) : read last = read first :=
  @Follows.invariant _ _ _ _ _ _ (fun state => read state = read first)
    (fun command before after step same =>
      (kept command before after step).trans same)
    follows rfl

end

/-- The commands that the steps of a run stand for, in order. -/
def gathered
    (step : State → Action → State) (given : State → Action → List Command) :
    State → List Action → List Command
  | _, [] => []
  | current, action :: rest =>
      given current action ++ gathered step given (step current action) rest

/-- A command was given by some step of the run. -/
theorem mem_gathered
    {step : State → Action → State} {given : State → Action → List Command}
    {start : State} {actions : List Action} {command : Command}
    (member : command ∈ gathered step given start actions) :
    ∃ before action after,
      actions = before ++ action :: after ∧
        command ∈ given (runActions step start before) action := by
  induction actions generalizing start with
  | nil =>
      cases member
  | cons action rest inductionHypothesis =>
      rcases List.mem_append.mp member with first | later
      · exact ⟨[], action, rest, rfl, first⟩
      · obtain ⟨before, other, after, split, given⟩ :=
          inductionHypothesis later
        refine ⟨action :: before, other, after, ?_, given⟩
        rw [split]
        rfl

/-- If each guarded step follows the commands that it stands for, under a
condition that the steps keep, a guarded run follows all of them. -/
theorem runActions_follows
    {may : Command → Abstract → Abstract → Prop}
    {step : State → Action → State} {guard : State → Action → Prop}
    {image : State → Abstract}
    {given : State → Action → List Command} (frame : State → Prop)
    (refines :
      ∀ current action, frame current → guard current action →
        frame (step current action) ∧
          Follows may (given current action) (image current)
            (image (step current action)))
    {start : State} {actions : List Action} (initial : frame start)
    (guarded : EveryStep step guard start actions) :
    Follows may (gathered step given start actions) (image start)
      (image (runActions step start actions)) := by
  induction actions generalizing start with
  | nil =>
      exact .nil _
  | cons action rest inductionHypothesis =>
      obtain ⟨framed, follows⟩ := refines start action initial guarded.1
      exact follows.append (inductionHypothesis framed guarded.2)

end LtlsKitting.Interaction
