import LtlsKitting.Operations.Description

/-!
# Loading the script of a description

The script that a description is rendered to is read back: the lines are
those that were rendered, each line has the fields it was composed of, and the
store after each line represents what has been written so far.  The
description grows at its end: the inventory, the tags, the list of orders, the
kits of the last order, and the items of its last kit.
-/

namespace LtlsKitting.Operations

open LtlsKitting.Php LtlsKitting.Store LtlsKitting.Interaction
open LtlsKitting.Relational

/-! ## Texts without special characters -/

/-- A text without line feed, number sign, comma and opening bracket. -/
def Plain (text : Bytes) : Prop :=
  ∀ byte ∈ text, byte ≠ 10 ∧ byte ≠ 35 ∧ byte ≠ 44 ∧ byte ≠ 91

instance decidablePlain (text : Bytes) : Decidable (Plain text) :=
  List.decidableBAll _ text

theorem plain_append {left right : Bytes}
    (leftPlain : Plain left) (rightPlain : Plain right) :
    Plain (left ++ right) := by
  intro byte member
  rcases List.mem_append.mp member with inLeft | inRight
  · exact leftPlain byte inLeft
  · exact rightPlain byte inRight

theorem Plain.no_comma {text : Bytes} (plain : Plain text) : 44 ∉ text :=
  fun member => (plain 44 member).2.2.1 rfl

theorem alnum_plain {byte : UInt8} (alnum : isAlnum byte = true) :
    byte ≠ 10 ∧ byte ≠ 35 ∧ byte ≠ 44 ∧ byte ≠ 91 := by
  refine ⟨?_, ?_, ?_, ?_⟩
  · rintro rfl
    cases alnum
  · rintro rfl
    cases alnum
  · rintro rfl
    cases alnum
  · rintro rfl
    cases alnum

theorem IsName.plain {text : Bytes} (name : IsName text) : Plain text := by
  intro byte member
  rcases name byte member with alnum | rfl
  · exact alnum_plain alnum
  · decide

theorem IsTag.plain {text : Bytes} (tag : IsTag text) : Plain text :=
  fun byte member => alnum_plain (tag.alnum byte member)

theorem decimal_plain (value : Int) : Plain (decimal value) := by
  intro byte member
  rcases decimal_bytes value byte member with digit | rfl
  · have alnum : isAlnum byte = true := by
      simp only [isDigit] at digit
      simp only [isAlnum]
      rw [digit]
      rfl
    exact alnum_plain alnum
  · decide

theorem carriageReturn_plain : Plain [13] := by
  intro byte member
  rw [List.mem_singleton.mp member]
  decide

/-! ## Lines -/

/-- A line that starts neither with a number sign nor with a bracket. -/
theorem content_of_head {first : UInt8} {rest : Bytes}
    (ordinary : first ≠ 35 ∧ first ≠ 91) :
    isComment (first :: rest) = false ∧ isHeader (first :: rest) = false := by
  simp [isComment, isHeader, ordinary.1, ordinary.2]

theorem Plain.content {first rest : Bytes}
    (plain : Plain first) (nonempty : first ≠ []) :
    isComment (first ++ rest) = false ∧ isHeader (first ++ rest) = false := by
  cases first with
  | nil =>
      exact absurd rfl nonempty
  | cons byte following =>
      have ordinary := plain byte (List.mem_cons_self ..)
      exact content_of_head ⟨ordinary.2.1, ordinary.2.2.2⟩

theorem explode_implode {fields : List Bytes}
    (plain : ∀ field ∈ fields, Plain field) (nonempty : fields ≠ []) :
    explode 44 (implode 44 fields) = fields :=
  List.splitOn_intercalate 44 (fun field member => (plain field member).no_comma)
    nonempty

theorem explode_implode_return (fields : List Bytes) (last : Bytes)
    (plain : ∀ field ∈ fields ++ [last], Plain field) :
    explode 44 (implode 44 (fields ++ [last]) ++ [13]) =
      fields ++ [last ++ [13]] := by
  rw [implode_append_last]
  apply explode_implode
  · intro field member
    rcases List.mem_append.mp member with inFields | atEnd
    · exact plain field (List.mem_append_left _ inFields)
    · rw [List.mem_singleton.mp atEnd]
      exact
        plain_append
          (plain last (List.mem_append_right _ (List.mem_singleton_self _)))
          carriageReturn_plain
  · simp

/-- The fields of a rendered line of the inventory. -/
theorem inventoryFields_line {entry : Bytes × Int} (name : IsName entry.1) :
    inventoryFields (inventoryLine entry ++ [13]) =
      some ⟨entry.1, decimal entry.2 ++ [13]⟩ := by
  have fields :=
    explode_implode_return [entry.1] (decimal entry.2) (by
      intro field member
      simp only [List.cons_append, List.nil_append, List.mem_cons,
        List.not_mem_nil, or_false] at member
      rcases member with rfl | rfl
      · exact name.plain
      · exact decimal_plain _)
  simp only [inventoryFields, inventoryLine]
  rw [show [entry.1, decimal entry.2] = [entry.1] ++ [decimal entry.2] from rfl,
    fields]
  rfl

def archivedField (item : Item) : Bytes :=
  if item.archived then bytes "t" else bytes "f"

theorem archivedField_plain (item : Item) : Plain (archivedField item) := by
  simp only [archivedField]
  split
  · decide
  · decide

theorem itemFields_plain {item : Item} (name : IsName item.name)
    (tag : ∀ text, item.tag = some text → IsTag text) :
    ∀ field ∈
        [decimal item.target, decimal item.count, item.tag.getD [],
          archivedField item, item.name],
      Plain field := by
  intro field member
  simp only [List.mem_cons, List.not_mem_nil, or_false] at member
  rcases member with rfl | rfl | rfl | rfl | rfl
  · exact decimal_plain _
  · exact decimal_plain _
  · cases given : item.tag with
    | none =>
        intro byte impossible
        cases impossible
    | some text => exact (tag text given).plain
  · exact archivedField_plain item
  · exact name.plain

/-- The fields of a rendered item. -/
theorem itemFields_line {item : Item} (name : IsName item.name)
    (tag : ∀ text, item.tag = some text → IsTag text) :
    itemFields (itemLine item ++ [13]) =
      some
        { target := decimal item.target
          count := decimal item.count
          tag := item.tag.getD []
          archived := archivedField item
          className := item.name } := by
  have fields :=
    explode_implode_return
      [decimal item.target, decimal item.count, item.tag.getD [],
        archivedField item]
      item.name (itemFields_plain name tag)
  simp only [itemFields, itemLine]
  rw [show
      [decimal item.target, decimal item.count, item.tag.getD [],
          if item.archived then bytes "t" else bytes "f", item.name] =
        [decimal item.target, decimal item.count, item.tag.getD [],
          archivedField item] ++ [item.name] from rfl,
    fields]
  simp [implode, withoutLastByte]

/-! ## Texts -/

theorem Plain.no_lineFeed {text : Bytes} (plain : Plain text) : 10 ∉ text :=
  fun member => (plain 10 member).1 rfl

theorem implode_no_lineFeed {fields : List Bytes}
    (plain : ∀ field ∈ fields, Plain field) : 10 ∉ implode 44 fields := by
  induction fields with
  | nil =>
      exact List.not_mem_nil
  | cons field rest inductionHypothesis =>
      have first := (plain field (List.mem_cons_self ..)).no_lineFeed
      have later :=
        inductionHypothesis
          (fun other member => plain other (List.mem_cons_of_mem _ member))
      simp only [implode] at later ⊢
      by_cases nothing : rest = []
      · subst nothing
        simpa using first
      · rw [List.intercalate_cons_of_ne_nil nothing]
        simp only [List.mem_append, List.mem_singleton, not_or]
        exact ⟨⟨first, by decide⟩, later⟩

section

variable (description : Description)

theorem Description.entryName {entry : Bytes × Int}
    (member : entry ∈ description.inventory) : IsName entry.1 :=
  description.names entry.1
    (List.mem_append_left _ (List.mem_map_of_mem member))

theorem Description.itemName {item : Item}
    (member : item ∈ description.items) : IsName item.name :=
  description.names item.name
    (List.mem_append_right _ (List.mem_map_of_mem member))

theorem Description.itemTag {item : Item}
    (member : item ∈ description.items) :
    ∀ text, item.tag = some text → IsTag text := by
  intro text given
  exact
    description.tagNames text
      (List.mem_append_right _
        (List.mem_filterMap.mpr ⟨item, member, given⟩))

theorem Description.listedTag {tag : Bytes}
    (member : tag ∈ description.tags) : IsTag tag :=
  description.tagNames tag (List.mem_append_left _ member)

/-- No line of the script contains a line feed. -/
theorem Description.lines_no_lineFeed :
    ∀ line ∈ description.lines, 10 ∉ line := by
  intro line member
  simp only [Warehouse.lines, List.cons_append, List.mem_cons,
    List.mem_append, List.mem_map, List.mem_flatMap] at member
  rcases member with rfl | (⟨entry, listed, rfl⟩ | rfl | listed) |
    ⟨kits, order, inOrder⟩
  · decide
  · apply implode_no_lineFeed
    intro field fieldMember
    simp only [List.mem_cons, List.not_mem_nil, or_false] at fieldMember
    rcases fieldMember with rfl | rfl
    · exact (description.entryName listed).plain
    · exact decimal_plain _
  · decide
  · exact (description.listedTag listed).plain.no_lineFeed
  · rcases List.mem_cons.mp inOrder with rfl | inKits
    · decide
    · obtain ⟨items, kit, inKit⟩ := List.mem_flatMap.mp inKits
      simp only [kitLines, List.mem_cons, List.mem_map] at inKit
      rcases inKit with rfl | rfl | ⟨item, itemMember, rfl⟩
      · decide
      · decide
      · have used : item ∈ description.items :=
          List.mem_flatten.mpr
            ⟨items, List.mem_flatten.mpr ⟨kits, order, kit⟩, itemMember⟩
        exact
          implode_no_lineFeed
            (itemFields_plain (description.itemName used)
              (description.itemTag used))

/-- The lines that the server reads are those that were rendered. -/
theorem Description.codeLines_render :
    codeLines (.text description.render) =
      description.lines.map (fun line => line ++ [13]) ++ [[]] := by
  have whole :
      ∀ line ∈ description.lines, (10 : UInt8) ∉ line ++ [13] := by
    intro line member
    simp only [List.mem_append, List.mem_singleton, not_or]
    exact ⟨description.lines_no_lineFeed line member, by decide⟩
  have ending :
      description.render =
        description.lines.flatMap (fun line => line ++ [13] ++ [10]) := by
    simp [Warehouse.render]
  change explode 10 description.render = _
  rw [ending]
  exact explode_lines [13] whole

end

end LtlsKitting.Operations
