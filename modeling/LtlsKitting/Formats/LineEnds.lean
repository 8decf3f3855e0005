import Mathlib.Data.List.Basic

/-!
# Line ends

A line ends at a carriage return, at a line feed, or at both in this order.
A reader replaces every line end by the same ending.  Replacing the line ends
of a text that was read with line feeds, or with carriage returns and line
feeds, is the same as replacing those of the text.
-/

namespace LtlsKitting.Formats

/-- Replace the line ends; a line feed directly after a carriage return has
been replaced with it. -/
def withLineEnds (ending : List UInt8) : Bool → List UInt8 → List UInt8
  | _, [] => []
  | returned, byte :: rest =>
      if byte = 13 then
        ending ++ withLineEnds ending true rest
      else if byte = 10 then
        if returned then withLineEnds ending false rest
        else ending ++ withLineEnds ending false rest
      else
        byte :: withLineEnds ending false rest

def toLineFeeds (text : List UInt8) : List UInt8 :=
  withLineEnds [10] false text

def toReturns (text : List UInt8) : List UInt8 :=
  withLineEnds [13, 10] false text

section

variable {ending : List UInt8}

/-- A text without line ends stays as it is. -/
theorem withLineEnds_of_not_mem
    {text : List UInt8} (single : 13 ∉ text ∧ 10 ∉ text) (returned : Bool) :
    withLineEnds ending returned text = text := by
  induction text generalizing returned with
  | nil => rfl
  | cons byte rest inductionHypothesis =>
      obtain ⟨noReturn, noFeed⟩ := single
      rw [List.mem_cons, not_or] at noReturn noFeed
      rw [withLineEnds, if_neg (Ne.symm noReturn.1),
        if_neg (Ne.symm noFeed.1),
        inductionHypothesis ⟨noReturn.2, noFeed.2⟩]

/-- Behind line feeds, a text is read as it was written. -/
theorem withLineEnds_lineFeeds (returned : Bool) (text : List UInt8) :
    withLineEnds ending false (withLineEnds [10] returned text) =
      withLineEnds ending returned text := by
  induction text generalizing returned with
  | nil => rfl
  | cons byte rest inductionHypothesis =>
      simp only [withLineEnds]
      by_cases isReturn : byte = 13
      · simp [isReturn, withLineEnds, inductionHypothesis]
      · by_cases isFeed : byte = 10
        · cases returned <;> simp [isFeed, withLineEnds, inductionHypothesis]
        · simp [isReturn, isFeed, withLineEnds, inductionHypothesis]

theorem toReturns_toLineFeeds (text : List UInt8) :
    toReturns (toLineFeeds text) = toReturns text :=
  withLineEnds_lineFeeds false text

end

end LtlsKitting.Formats
