import LtlsKitting.Interaction.Refinement
import Mathlib.Algebra.BigOperators.Group.Finset.Basic
import Mathlib.Algebra.Order.BigOperators.Group.Finset
import Mathlib.Tactic.Abel

/-!
# A depot

A depot has goods of several kinds in stock and at places; each place takes
goods of one kind, up to a target.  An order moves goods between the stock and
a place until the place has a given amount; it is carried out only if the
stock suffices.  Another order marks a place that has its target with a label
that no place carries, or takes its label away if there is no such label.

Whatever is ordered, goods are neither lost nor created, the stock never falls
below zero, and no label is at two places.
-/

namespace LtlsKitting.Depot

open LtlsKitting.Interaction

variable {κ γ τ M : Type}

/-- The places with the kinds of their goods and their targets. -/
structure Plan (κ γ M : Type) where
  places : Finset γ
  kind : γ → κ
  target : γ → M

/-- Where the goods and the labels are. -/
@[ext]
structure Holdings (κ γ τ M : Type) where
  stock : κ → M
  amount : γ → M
  label : γ → Option τ

inductive Order (γ M : Type) where
  | move (place : γ) (amount : M)
  | mark (place : γ)

section

variable [DecidableEq κ] [DecidableEq γ] [AddCommGroup M] [LinearOrder M]
variable (plan : Plan κ γ M)

/-- The place has the given amount, and the rest is in stock. -/
def Holdings.move
    (holdings : Holdings κ γ τ M) (place : γ) (amount : M) :
    Holdings κ γ τ M :=
  { holdings with
    stock :=
      Function.update holdings.stock (plan.kind place)
        (holdings.stock (plan.kind place) - (amount - holdings.amount place))
    amount := Function.update holdings.amount place amount }

def Holdings.mark
    (holdings : Holdings κ γ τ M) (place : γ) (label : Option τ) :
    Holdings κ γ τ M :=
  { holdings with label := Function.update holdings.label place label }

/-- The place exists and the stock suffices. -/
def Allows
    (holdings : Holdings κ γ τ M) (place : γ) (amount : M) : Prop :=
  place ∈ plan.places ∧
    amount - holdings.amount place ≤ holdings.stock (plan.kind place)

/-- The place exists and has its target. -/
def Complete (holdings : Holdings κ γ τ M) (place : γ) : Prop :=
  place ∈ plan.places ∧ holdings.amount place = plan.target place

/-- No place carries the label. -/
def Free (holdings : Holdings κ γ τ M) (label : τ) : Prop :=
  ∀ place ∈ plan.places, holdings.label place ≠ some label

/-- What an order may do, if the depot has the given labels. -/
inductive Serves (labels : Set τ) :
    Order γ M → Holdings κ γ τ M → Holdings κ γ τ M → Prop
  | moved {holdings : Holdings κ γ τ M} {place : γ} {amount : M} :
      Allows plan holdings place amount →
      Serves labels (.move place amount) holdings
        (holdings.move plan place amount)
  | refused {holdings : Holdings κ γ τ M} {place : γ} {amount : M} :
      ¬ Allows plan holdings place amount →
      Serves labels (.move place amount) holdings holdings
  | marked {holdings : Holdings κ γ τ M} {place : γ} {label : τ} :
      Complete plan holdings place →
      label ∈ labels →
      Free plan holdings label →
      Serves labels (.mark place) holdings (holdings.mark place (some label))
  | unmarked {holdings : Holdings κ γ τ M} {place : γ} :
      Complete plan holdings place →
      (∀ label ∈ labels, ¬ Free plan holdings label) →
      Serves labels (.mark place) holdings (holdings.mark place none)
  | incomplete {holdings : Holdings κ γ τ M} {place : γ} :
      ¬ Complete plan holdings place →
      Serves labels (.mark place) holdings holdings

/-- The goods of a kind, in stock and at the places. -/
def Holdings.total (holdings : Holdings κ γ τ M) (kind : κ) : M :=
  holdings.stock kind +
    ∑ place ∈ plan.places with plan.kind place = kind, holdings.amount place

/-- The depot is in order: it owes no goods, and its labels are at most at one
place each. -/
structure Orderly (labels : Set τ) (holdings : Holdings κ γ τ M) :
    Prop where
  stock : ∀ kind, 0 ≤ holdings.stock kind
  listed :
    ∀ place ∈ plan.places, ∀ label,
      holdings.label place = some label → label ∈ labels
  distinct :
    ∀ place ∈ plan.places, ∀ other ∈ plan.places, ∀ label,
      holdings.label place = some label →
        holdings.label other = some label → place = other

/-! ## One order -/

variable {plan} {labels : Set τ} {order : Order γ M}
variable {before after : Holdings κ γ τ M}

omit [LinearOrder M] in
theorem total_move
    {place : γ} (present : place ∈ plan.places) (amount : M) (kind : κ) :
    (before.move plan place amount).total plan kind =
      before.total plan kind := by
  have others :
      ∀ other ∈ plan.places.filter (fun other => plan.kind other = kind),
        other ≠ place →
          (before.move plan place amount).amount other =
            before.amount other := by
    intro other _ different
    exact Function.update_of_ne different _ _
  simp only [Holdings.total]
  by_cases same : plan.kind place = kind
  · have member :
        place ∈ plan.places.filter (fun other => plan.kind other = kind) :=
      Finset.mem_filter.mpr ⟨present, same⟩
    have stocked :
        (before.move plan place amount).stock kind =
          before.stock kind - (amount - before.amount place) := by
      rw [← same]
      exact Function.update_self ..
    have placed : (before.move plan place amount).amount place = amount :=
      Function.update_self ..
    have rest :
        ∑ other ∈
            (plan.places.filter (fun other => plan.kind other = kind)).erase
              place,
            (before.move plan place amount).amount other =
          ∑ other ∈
            (plan.places.filter (fun other => plan.kind other = kind)).erase
              place,
            before.amount other := by
      apply Finset.sum_congr rfl
      intro other remaining
      exact
        others other (Finset.mem_of_mem_erase remaining)
          (Finset.ne_of_mem_erase remaining)
    rw [← Finset.add_sum_erase _ _ member, ← Finset.add_sum_erase _ _ member,
      stocked, placed, rest]
    abel
  · have stocked :
        (before.move plan place amount).stock kind = before.stock kind :=
      Function.update_of_ne (Ne.symm same) _ _
    rw [stocked]
    congr 1
    apply Finset.sum_congr rfl
    intro other member
    apply others other member
    rintro rfl
    exact same (Finset.mem_filter.mp member).2

/-- Goods are neither lost nor created. -/
theorem Serves.total
    (serves : Serves plan labels order before after) (kind : κ) :
    after.total plan kind = before.total plan kind := by
  cases serves with
  | moved allowed => exact total_move allowed.1 _ kind
  | refused => rfl
  | marked => rfl
  | unmarked => rfl
  | incomplete => rfl

omit [DecidableEq κ] in
theorem Orderly.mark
    (orderly : Orderly plan labels before) (place : γ) {label : Option τ}
    (fresh :
      ∀ given, label = some given →
        given ∈ labels ∧ Free plan before given) :
    Orderly plan labels (before.mark place label) := by
  refine ⟨orderly.stock, ?_, ?_⟩
  · intro other present given carried
    by_cases same : other = place
    · subst same
      have isGiven : label = some given := by
        simpa [Holdings.mark] using carried
      exact (fresh given isGiven).1
    · apply orderly.listed other present given
      simpa [Holdings.mark, same] using carried
  · intro first firstPresent second secondPresent given carried carriedToo
    by_cases firstSame : first = place
    · subst firstSame
      by_cases secondSame : second = first
      · exact secondSame.symm
      · have isGiven : label = some given := by
          simpa [Holdings.mark] using carried
        have elsewhere : before.label second = some given := by
          simpa [Holdings.mark, secondSame] using carriedToo
        exact absurd elsewhere ((fresh given isGiven).2 second secondPresent)
    · have elsewhere : before.label first = some given := by
        simpa [Holdings.mark, firstSame] using carried
      by_cases secondSame : second = place
      · subst secondSame
        have isGiven : label = some given := by
          simpa [Holdings.mark] using carriedToo
        exact absurd elsewhere ((fresh given isGiven).2 first firstPresent)
      · apply
          orderly.distinct first firstPresent second secondPresent given
            elsewhere
        simpa [Holdings.mark, secondSame] using carriedToo

variable [IsOrderedAddMonoid M]

theorem stock_nonneg_move
    (solvent : ∀ kind, 0 ≤ before.stock kind) {place : γ} {amount : M}
    (allowed : Allows plan before place amount) (kind : κ) :
    0 ≤ (before.move plan place amount).stock kind := by
  by_cases same : kind = plan.kind place
  · subst same
    simpa [Holdings.move] using allowed.2
  · simpa [Holdings.move, same] using solvent kind

/-- No order makes the depot owe goods. -/
theorem Serves.solvent
    (serves : Serves plan labels order before after)
    (solvent : ∀ kind, 0 ≤ before.stock kind) :
    ∀ kind, 0 ≤ after.stock kind := by
  cases serves with
  | moved allowed => exact stock_nonneg_move solvent allowed
  | refused => exact solvent
  | marked => exact solvent
  | unmarked => exact solvent
  | incomplete => exact solvent

/-- An order leaves a depot in order. -/
theorem Serves.orderly
    (serves : Serves plan labels order before after)
    (orderly : Orderly plan labels before) :
    Orderly plan labels after := by
  cases serves with
  | moved allowed =>
      exact
        ⟨stock_nonneg_move orderly.stock allowed, orderly.listed,
          orderly.distinct⟩
  | refused => exact orderly
  | marked complete known free =>
      apply orderly.mark
      rintro given ⟨⟩
      exact ⟨known, free⟩
  | unmarked =>
      apply orderly.mark
      rintro given ⟨⟩
  | incomplete => exact orderly

omit [IsOrderedAddMonoid M] in
/-- A place that an order does not move to keeps its amount. -/
theorem Serves.amount
    (serves : Serves plan labels order before after) (place : γ) :
    after.amount place = before.amount place ∨
      order = .move place (after.amount place) := by
  cases serves with
  | @moved _ target amount allowed =>
      by_cases same : place = target
      · subst same
        right
        simp [Holdings.move]
      · left
        simp [Holdings.move, same]
  | refused => exact Or.inl rfl
  | marked => exact Or.inl rfl
  | unmarked => exact Or.inl rfl
  | incomplete => exact Or.inl rfl

/-! ## Runs -/

variable {orders : List (Order γ M)}

omit [IsOrderedAddMonoid M] in
theorem total_of_follows
    (follows : Follows (Serves plan labels) orders before after) (kind : κ) :
    after.total plan kind = before.total plan kind :=
  @Follows.same _ _ _ _ _ _ _
    (fun holdings => Holdings.total plan holdings kind)
    (fun _ _ _ serves => serves.total kind) follows

theorem solvent_of_follows
    (follows : Follows (Serves plan labels) orders before after)
    (solvent : ∀ kind, 0 ≤ before.stock kind) :
    ∀ kind, 0 ≤ after.stock kind :=
  @Follows.invariant _ _ _ _ _ _
    (fun holdings : Holdings κ γ τ M => ∀ kind, 0 ≤ holdings.stock kind)
    (fun _ _ _ serves => serves.solvent) follows solvent

omit [IsOrderedAddMonoid M] in
/-- The amount at a place was there before, or was ordered. -/
theorem amount_of_follows
    (follows : Follows (Serves plan labels) orders before after)
    (place : γ) :
    after.amount place = before.amount place ∨
      .move place (after.amount place) ∈ orders := by
  induction follows with
  | nil state => exact Or.inl rfl
  | @cons order rest first middle last serves later inductionHypothesis =>
      rcases inductionHypothesis with same | ordered
      · rw [same]
        rcases serves.amount place with kept | isOrder
        · exact Or.inl kept
        · rw [← isOrder]
          exact Or.inr (List.mem_cons_self ..)
      · exact Or.inr (List.mem_cons_of_mem _ ordered)

end

end LtlsKitting.Depot
