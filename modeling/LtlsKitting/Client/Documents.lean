import LtlsKitting.Client.Page

/-!
# Documents as texts

A tick writes the members of every row as a document.  The server decodes a
document member by member.  What a number is decoded to depends on both sides;
up to 2^53 it is the number.
-/

namespace LtlsKitting.Client

open LtlsKitting.Php LtlsKitting.Web

/-- The text of a parsed number; what is not a number is written as null. -/
def numberMember (numberText : Int → Bytes) : Option Int → Bytes
  | some value => numberText value
  | none => bytes "null"

/-- `JSON.stringify` of the document of a row. -/
def rowText
    (numberText : Int → Bytes) (id value : Option Int) (tag : Bool) : Bytes :=
  123 :: bytes "\"id\":" ++ numberMember numberText id ++
    bytes ",\"value\":" ++ numberMember numberText value ++
    bytes ",\"tag\":" ++ bytes (if tag then "true" else "false") ++
    bytes ",\"status\":-1" ++ [125]

/-- `JSON.stringify` of the document of the status. -/
def statusText (status : Int) : Bytes :=
  123 :: bytes "\"id\":\"\",\"value\":\"\",\"tag\":\"\",\"status\":" ++
    decimal status ++ [125]

/-- The texts that a tick posts. -/
def syncTexts (numberText : Int → Bytes) (table : Table) : List Bytes :=
  table.map (fun row =>
      rowText numberText (parseInt (numeral row.id))
        ((inputText row).bind parseInt) (labelRequested row)) ++
    if table.isEmpty then [] else [statusText (tableStatus table)]

/-- A parsed number as the server decodes it. -/
def postedMember (browser : Browser) : Option Int → Json
  | some value => browser.posted value
  | none => .null

def rowObject
    (browser : Browser) (id value : Option Int) (tag : Bool) : Json :=
  .object
    [(bytes "id", postedMember browser id),
      (bytes "value", postedMember browser value), (bytes "tag", .bool tag),
      (bytes "status", .int (-1))]

/-- The server decodes the documents member by member, and a number to what
the page posts. -/
structure Decodes
    (numberText : Int → Bytes) (browser : Browser) (runtime : Runtime) :
    Prop where
  row :
    ∀ id value tag,
      runtime.jsonDecode (rowText numberText id value tag) =
        some (rowObject browser id value tag)
  status :
    ∀ status, 0 ≤ status → status ≤ 2 →
      runtime.jsonDecode (statusText status) =
        some
          (.object
            [(bytes "id", .string []), (bytes "value", .string []),
              (bytes "tag", .string []), (bytes "status", .int status)])

/-! ## A decoder -/

/-- An integer without a sign at the start of a text, and the rest. -/
def readDigits (text : Bytes) : Option (Nat × Bytes) :=
  if text.takeWhile isDigit = [] then
    none
  else
    some (digitsValue (text.takeWhile isDigit), text.dropWhile isDigit)

/-- A value without members at the start of a text, and the rest. -/
def readScalar : Bytes → Option (Json × Bytes)
  | 110 :: 117 :: 108 :: 108 :: rest => some (.null, rest)
  | 116 :: 114 :: 117 :: 101 :: rest => some (.bool true, rest)
  | 102 :: 97 :: 108 :: 115 :: 101 :: rest => some (.bool false, rest)
  | 34 :: 34 :: rest => some (.string [], rest)
  | 45 :: rest =>
      (readDigits rest).map (fun found => (.int (-(found.1 : Int)), found.2))
  | text =>
      (readDigits text).map (fun found => (.int (found.1 : Int), found.2))

/-- A member after a delimiter. -/
def readMember (delimiter : UInt8) (name text : Bytes) :
    Option (Json × Bytes) :=
  if delimiter :: 34 :: name ++ [34, 58] <+: text then
    readScalar (text.drop (name.length + 4))
  else
    none

/-- A document with the four members of a post. -/
def readDocument (text : Bytes) : Option Json := do
  let (id, text) ← readMember 123 (bytes "id") text
  let (value, text) ← readMember 44 (bytes "value") text
  let (tag, text) ← readMember 44 (bytes "tag") text
  let (status, text) ← readMember 44 (bytes "status") text
  if text = [125] then
    some
      (.object
        [(bytes "id", id), (bytes "value", value), (bytes "tag", tag),
          (bytes "status", status)])
  else
    none

theorem readDigits_decimalDigits (value : Nat) {rest : Bytes}
    (stops : ∀ byte ∈ rest.head?, isDigit byte = false) :
    readDigits ((decimalDigits value).map digitByte ++ rest) =
      some (value, rest) := by
  have digits :
      ∀ byte ∈ (decimalDigits value).map digitByte,
        isDigit byte = true := by
    intro byte member
    obtain ⟨digit, known, rfl⟩ := List.mem_map.mp member
    exact isDigit_digitByte (decimalDigits_lt known)
  have stopped : rest.takeWhile isDigit = [] ∧ rest.dropWhile isDigit = rest := by
    cases rest with
    | nil => exact ⟨rfl, rfl⟩
    | cons byte rest =>
        have noDigit : isDigit byte = false := stops byte rfl
        simp [noDigit]
  have nonempty : (decimalDigits value).map digitByte ≠ [] := by
    simpa using decimalDigits_ne_nil value
  rw [readDigits, List.takeWhile_append_of_pos digits,
    List.dropWhile_append_of_pos digits, stopped.1, stopped.2,
    List.append_nil, if_neg nonempty, digitsValue_decimalDigits]

theorem readScalar_decimal (value : Int) {rest : Bytes}
    (stops : ∀ byte ∈ rest.head?, isDigit byte = false) :
    readScalar (decimal value ++ rest) = some (.int value, rest) := by
  have read := readDigits_decimalDigits value.natAbs stops
  by_cases negative : value < 0
  · have exact : -(value.natAbs : Int) = value := by omega
    simp only [decimal, negative, if_true, List.cons_append,
      List.nil_append, readScalar, read, Option.map_some, exact]
  · have exact : (value.natAbs : Int) = value := by omega
    obtain ⟨first, digits, shape⟩ :=
      List.exists_cons_of_ne_nil (decimalDigits_ne_nil value.natAbs)
    have small : first < 10 := by
      apply @decimalDigits_lt value.natAbs
      rw [shape]
      exact List.mem_cons_self ..
    have isNumber := isDigit_digitByte small
    have other :
        digitByte first ≠ 110 ∧ digitByte first ≠ 116 ∧
          digitByte first ≠ 102 ∧ digitByte first ≠ 34 ∧
            digitByte first ≠ 45 := by
      refine ⟨?_, ?_, ?_, ?_, ?_⟩ <;>
        (intro same; rw [same] at isNumber; exact absurd isNumber (by decide))
    rw [shape] at read
    simp only [List.map_cons, List.cons_append] at read
    simp only [decimal, negative, if_false, List.nil_append, shape,
      List.map_cons, List.cons_append]
    rw [readScalar]
    · rw [read, Option.map_some, exact]
    · exact fun _ same => absurd (List.cons.inj same).1 other.1
    · exact fun _ same => absurd (List.cons.inj same).1 other.2.1
    · exact fun _ same => absurd (List.cons.inj same).1 other.2.2.1
    · exact fun _ same => absurd (List.cons.inj same).1 other.2.2.2.1
    · exact fun _ same => absurd (List.cons.inj same).1 other.2.2.2.2

theorem readMember_append (delimiter : UInt8) (name text : Bytes) :
    readMember delimiter name
        (delimiter :: 34 :: name ++ [34, 58] ++ text) =
      readScalar text := by
  have long :
      name.length + 4 =
        (delimiter :: 34 :: name ++ [34, 58] : Bytes).length := by
    simp
  rw [readMember, if_pos (List.prefix_append _ _), long, List.drop_left]

/-- The text is read as the value, up to the next delimiter. -/
def ReadAs (text : Bytes) (value : Json) : Prop :=
  ∀ rest : Bytes, (∀ byte ∈ rest.head?, isDigit byte = false) →
    readScalar (text ++ rest) = some (value, rest)

theorem readAs_numberMember (value : Option Int) :
    ReadAs (numberMember decimal value)
      (postedMember Browser.exact value) := by
  intro rest stops
  cases value with
  | none => rfl
  | some value => exact readScalar_decimal value stops

theorem readAs_tag (tag : Bool) :
    ReadAs (bytes (if tag then "true" else "false")) (.bool tag) := by
  intro rest _
  cases tag <;> rfl

/-- A document is read if its members are. -/
theorem readDocument_of_members
    {idText valueText tagText statusText : Bytes}
    {id value tag status : Json}
    (readId : ReadAs idText id) (readValue : ReadAs valueText value)
    (readTag : ReadAs tagText tag) (readStatus : ReadAs statusText status) :
    readDocument
        (123 :: 34 :: bytes "id" ++ [34, 58] ++
          (idText ++
            (44 :: 34 :: bytes "value" ++ [34, 58] ++
              (valueText ++
                (44 :: 34 :: bytes "tag" ++ [34, 58] ++
                  (tagText ++
                    (44 :: 34 :: bytes "status" ++ [34, 58] ++
                      (statusText ++ [125])))))))) =
      some
        (.object
          [(bytes "id", id), (bytes "value", value), (bytes "tag", tag),
            (bytes "status", status)]) := by
  have next :
      ∀ {text : Bytes} {read : Json}, ReadAs text read →
        ∀ name rest : Bytes,
          readScalar (text ++ (44 :: 34 :: name ++ [34, 58] ++ rest)) =
            some (read, 44 :: 34 :: name ++ [34, 58] ++ rest) := by
    intro text read isRead name rest
    apply isRead
    rintro byte ⟨⟩
    decide
  have last :
      readScalar (statusText ++ [125]) = some (status, [125]) := by
    apply readStatus
    rintro byte ⟨⟩
    decide
  simp only [readDocument, readMember_append, next readId, next readValue,
    next readTag, last, Option.bind_eq_bind, Option.bind_some, if_true]

/-- A runtime that decodes documents. -/
def documentRuntime : Runtime where
  serverName := bytes "localhost"
  jsonDecode := readDocument
  looselyZero := fun text => text == bytes "0"

theorem decodes_documentRuntime :
    Decodes decimal Browser.exact documentRuntime := by
  have idMember : bytes "\"id\":" = 34 :: bytes "id" ++ [34, 58] := by decide
  have valueMember :
      bytes ",\"value\":" = 44 :: 34 :: bytes "value" ++ [34, 58] := by
    decide
  have tagMember :
      bytes ",\"tag\":" = 44 :: 34 :: bytes "tag" ++ [34, 58] := by
    decide
  have rowEnd :
      bytes ",\"status\":-1" =
        44 :: 34 :: bytes "status" ++ [34, 58] ++ decimal (-1) := by
    decide
  have statusFront :
      bytes "\"id\":\"\",\"value\":\"\",\"tag\":\"\",\"status\":" =
        34 :: bytes "id" ++ [34, 58] ++ [34, 34] ++
          44 :: 34 :: bytes "value" ++ [34, 58] ++ [34, 34] ++
          44 :: 34 :: bytes "tag" ++ [34, 58] ++ [34, 34] ++
          44 :: 34 :: bytes "status" ++ [34, 58] := by
    decide
  constructor
  · intro id value tag
    have read :=
      readDocument_of_members (readAs_numberMember id)
        (readAs_numberMember value) (readAs_tag tag)
        (fun _ stops => readScalar_decimal (-1) stops)
    rw [rowText, idMember, valueMember, tagMember, rowEnd]
    simp only [List.append_assoc, List.cons_append] at read ⊢
    exact read
  · intro status _ _
    have empty : ReadAs [34, 34] (.string []) := fun _ _ => rfl
    have read :=
      readDocument_of_members empty empty empty
        (fun _ stops => readScalar_decimal status stops)
    rw [statusText, statusFront]
    simp only [List.append_assoc, List.cons_append] at read ⊢
    exact read

theorem rowDocument_eq (browser : Browser) (row : Row) :
    rowDocument browser row =
      rowObject browser (parseInt (numeral row.id))
        ((inputText row).bind parseInt) (labelRequested row) := by
  have number :
      ∀ text, postedNumber browser text =
        postedMember browser (parseInt text) := by
    intro text
    simp only [postedNumber]
    split
    next value read => rw [read]; rfl
    next unread => rw [unread]; rfl
  cases typed : inputText row with
  | none =>
      simp only [rowDocument, typed, number]
      rfl
  | some text =>
      simp only [rowDocument, typed, number]
      rfl

theorem tableStatus_bounds (table : Table) :
    0 ≤ tableStatus table ∧ tableStatus table ≤ 2 := by
  simp only [tableStatus]
  split
  · decide
  · split <;> decide

/-- The posted texts are decoded to the posted documents. -/
theorem decoded_syncTexts
    {numberText : Int → Bytes} {browser : Browser} {runtime : Runtime}
    (decodes : Decodes numberText browser runtime) (table : Table) :
    (syncTexts numberText table).map runtime.jsonDecode =
      (syncDocuments browser table).map some := by
  have rows :
      ∀ row ∈ table,
        runtime.jsonDecode
            (rowText numberText (parseInt (numeral row.id))
              ((inputText row).bind parseInt) (labelRequested row)) =
          some (rowDocument browser row) := by
    intro row _
    rw [decodes.row, rowDocument_eq]
  simp only [syncTexts, syncDocuments, List.map_append, List.map_map]
  congr 1
  · exact List.map_congr_left rows
  · split
    · rfl
    · obtain ⟨lower, upper⟩ := tableStatus_bounds table
      rw [List.map_singleton, decodes.status _ lower upper]
      rfl

end LtlsKitting.Client
