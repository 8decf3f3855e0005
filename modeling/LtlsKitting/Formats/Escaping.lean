import Mathlib.Data.List.TakeWhile

/-!
# Escaped texts and delimited fields

A text is written symbol by symbol, each as a short code, and a reader undoes
the codes whatever follows.  Texts whose codes avoid a delimiter can be joined
with the delimiter and are found again between its occurrences.
-/

namespace LtlsKitting.Formats

variable {α β : Type}

/-- Codes of symbols that a reader of whole texts undoes. -/
structure SymbolCode (α β : Type) where
  code : α → List β
  read : List β → List α
  read_nil : read [] = []
  read_code : ∀ symbol rest, read (code symbol ++ rest) = symbol :: read rest

namespace SymbolCode

variable (symbols : SymbolCode α β)

/-- The codes of the symbols of a text, one after the other. -/
def encode (text : List α) : List β :=
  text.flatMap symbols.code

theorem read_encode_append (text : List α) (rest : List β) :
    symbols.read (symbols.encode text ++ rest) = text ++ symbols.read rest := by
  induction text with
  | nil =>
      rfl
  | cons symbol text inductionHypothesis =>
      rw [encode, List.flatMap_cons, List.append_assoc, symbols.read_code]
      exact congrArg (List.cons symbol) inductionHypothesis

@[simp]
theorem read_encode (text : List α) :
    symbols.read (symbols.encode text) = text := by
  have whole := symbols.read_encode_append text []
  rw [List.append_nil, symbols.read_nil, List.append_nil] at whole
  exact whole

/-- What occurs in no code occurs in no encoded text. -/
theorem not_mem_encode {delimiter : β}
    (avoids : ∀ symbol, delimiter ∉ symbols.code symbol) (text : List α) :
    delimiter ∉ symbols.encode text := by
  intro member
  obtain ⟨symbol, _, inside⟩ := List.mem_flatMap.mp member
  exact avoids symbol inside

end SymbolCode

/-! ## Delimited fields -/

theorem not_mem_intercalate {separator : List β} {fields : List (List β)}
    {symbol : β} (outside : symbol ∉ separator)
    (whole : ∀ field ∈ fields, symbol ∉ field) :
    symbol ∉ separator.intercalate fields := by
  induction fields with
  | nil =>
      simp
  | cons field rest inductionHypothesis =>
      have first := whole field (List.mem_cons_self ..)
      have later :=
        inductionHypothesis
          (fun other member => whole other (List.mem_cons_of_mem _ member))
      cases rest with
      | nil =>
          rw [List.intercalate_singleton]
          exact first
      | cons second others =>
          rw [List.intercalate_cons_cons, List.mem_append, List.mem_append,
            not_or, not_or]
          exact ⟨⟨first, outside⟩, later⟩

section

variable [DecidableEq β]

/-- The part before the first delimiter, and the part after it. -/
def splitPair (delimiter : β) (field : List β) : List β × List β :=
  (field.takeWhile (fun symbol => symbol != delimiter),
    (field.dropWhile (fun symbol => symbol != delimiter)).drop 1)

theorem splitPair_append {delimiter : β} {first : List β}
    (whole : delimiter ∉ first) (second : List β) :
    splitPair delimiter (first ++ delimiter :: second) = (first, second) := by
  have different : ∀ symbol ∈ first, (symbol != delimiter) = true := by
    intro symbol member
    rw [bne_iff_ne]
    rintro rfl
    exact whole member
  rw [splitPair, List.takeWhile_append_of_pos different,
    List.dropWhile_append_of_pos different]
  simp

/-- A field without a delimiter is its first part. -/
theorem splitPair_of_not_mem {delimiter : β} {field : List β}
    (whole : delimiter ∉ field) :
    splitPair delimiter field = (field, []) := by
  have different : ∀ symbol ∈ field, (symbol != delimiter) = true := by
    intro symbol member
    rw [bne_iff_ne]
    rintro rfl
    exact whole member
  rw [splitPair, List.takeWhile_eq_self_iff.mpr different,
    List.dropWhile_eq_nil_iff.mpr different]
  rfl

end

end LtlsKitting.Formats
