import LtlsKitting.Cabinet.Calls
import LtlsKitting.Formats.Escaping

/-!
# Forms and queries

A page posts its documents with `$.post`, which writes them as the fields of a
form, and the server reads the fields of a form into `$_POST`.  A redirection
writes the parameters of a request into a URL, and the browser sends them back
as a query.  In both directions the values arrive as they were sent.
-/

namespace LtlsKitting.Web

open LtlsKitting.Php LtlsKitting.Store LtlsKitting.Operations
open LtlsKitting.Cabinet LtlsKitting.Formats LtlsKitting.Interaction

/-! ## Writing a form -/

/-- The characters that `encodeURIComponent` keeps. -/
def isUnreserved (byte : UInt8) : Bool :=
  isAlnum byte || (bytes "-_.!~*'()").contains byte

def percentCode (byte : UInt8) : Bytes :=
  [37, hexDigit (byte / 16), hexDigit (byte % 16)]

def encodeURIByte (byte : UInt8) : Bytes :=
  if isUnreserved byte then [byte] else percentCode byte

/-- `encodeURIComponent` of a text in UTF-8. -/
def encodeURIComponent (text : Bytes) : Bytes :=
  text.flatMap encodeURIByte

/-- `replace( /%20/g,"+" )` -/
def replaceBlanks : Bytes → Bytes
  | 37 :: 50 :: 48 :: rest => 43 :: replaceBlanks rest
  | byte :: rest => byte :: replaceBlanks rest
  | [] => []

/-- `jQuery.param` of named texts. -/
def param (entries : List (Bytes × Bytes)) : Bytes :=
  replaceBlanks
    (implode 38
      (entries.map (fun entry =>
        encodeURIComponent entry.1 ++ 61 :: encodeURIComponent entry.2)))

/-- `jQuery.param( { "requests[]": documents } )` -/
def requestsParam (documents : List Bytes) : Bytes :=
  param (documents.map (fun document => (bytes "requests[]", document)))

/-! ## Reading a form -/

/-- The name and the value of a field. -/
def formField (field : Bytes) : Bytes × Bytes :=
  (urldecode (splitPair 61 field).1, urldecode (splitPair 61 field).2)

/-- Set a parameter. -/
def setParam (params : Params) (name : Bytes) (value : Param) : Params :=
  if params.has name then
    params.map (fun entry => if entry.1 = name then (name, value) else entry)
  else
    params ++ [(name, value)]

/-- The name of an array whose next value a field is. -/
def arrayName (name : Bytes) : Option Bytes :=
  if bytes "[]" <:+ name then some (name.take (name.length - 2)) else none

/-- One field of a form.  A field without a name is ignored, and other forms
of names than `name` and `name[]` are not read. -/
def registerVariable (params : Params) (field : Bytes × Bytes) : Params :=
  if field.1 = [] then
    params
  else
    match arrayName field.1 with
    | some name =>
        match params.value name with
        | some (.array values) =>
            setParam params name (.array (values ++ [.text field.2]))
        | _ => setParam params name (.array [.text field.2])
    | none => setParam params field.1 (.text field.2)

/-- The parameters of a form; fields beyond the limit `max_input_vars` are
dropped. -/
def formParams (limit : Nat) (body : Bytes) : Params :=
  (((explode 38 body).take limit).map formField).foldl registerVariable []

/-! ## Codes of bytes -/

theorem hexDigit_spec :
    ∀ digit < 16,
      hexValue (hexDigit (UInt8.ofNat digit)) = some (UInt8.ofNat digit) ∧
        isAlnum (hexDigit (UInt8.ofNat digit)) = true := by
  decide

theorem halves (byte : UInt8) :
    (∃ digit < 16, byte / 16 = UInt8.ofNat digit) ∧
      (∃ digit < 16, byte % 16 = UInt8.ofNat digit) ∧
        16 * (byte / 16) + byte % 16 = byte := by
  have bound := byte.toNat_lt
  refine ⟨⟨byte.toNat / 16, by omega, ?_⟩, ⟨byte.toNat % 16, by omega, ?_⟩, ?_⟩
  · rw [← UInt8.toNat_inj, UInt8.toNat_div, UInt8.toNat_ofNat']
    simp only [UInt8.reduceToNat]
    omega
  · rw [← UInt8.toNat_inj, UInt8.toNat_mod, UInt8.toNat_ofNat']
    simp only [UInt8.reduceToNat]
    omega
  · rw [← UInt8.toNat_inj, UInt8.toNat_add, UInt8.toNat_mul, UInt8.toNat_div,
      UInt8.toNat_mod]
    simp only [UInt8.reduceToNat]
    omega

theorem urldecode_percentCode (byte : UInt8) (rest : Bytes) :
    urldecode (percentCode byte ++ rest) = byte :: urldecode rest := by
  obtain ⟨⟨high, highSmall, isHigh⟩, ⟨low, lowSmall, isLow⟩, whole⟩ :=
    halves byte
  have readHigh := (hexDigit_spec high highSmall).1
  have readLow := (hexDigit_spec low lowSmall).1
  rw [← isHigh] at readHigh
  rw [← isLow] at readLow
  simp only [percentCode, List.cons_append, List.nil_append, urldecode,
    readHigh, readLow, whole]

/-- A byte that is not special stands for itself. -/
theorem urldecode_cons {byte : UInt8} (plain : byte ≠ 37 ∧ byte ≠ 43)
    (rest : Bytes) : urldecode (byte :: rest) = byte :: urldecode rest := by
  rw [urldecode]
  · exact plain.2
  · intro high low more percent
    exact absurd percent plain.1

/-- The code of a byte consists of a percent sign and two digits. -/
theorem not_mem_percentCode {delimiter : UInt8}
    (special : isAlnum delimiter = false) (other : delimiter ≠ 37)
    (byte : UInt8) : delimiter ∉ percentCode byte := by
  obtain ⟨⟨high, highSmall, isHigh⟩, ⟨low, lowSmall, isLow⟩, _⟩ := halves byte
  have alnumHigh := (hexDigit_spec high highSmall).2
  have alnumLow := (hexDigit_spec low lowSmall).2
  rw [← isHigh] at alnumHigh
  rw [← isLow] at alnumLow
  simp only [percentCode, List.mem_cons, List.not_mem_nil, or_false, not_or]
  refine ⟨other, ?_, ?_⟩
  · rintro rfl
    rw [special] at alnumHigh
    cases alnumHigh
  · rintro rfl
    rw [special] at alnumLow
    cases alnumLow

theorem isUnreserved_ne {byte : UInt8}
    (unreserved : isUnreserved byte = true) :
    byte ≠ 32 ∧ byte ≠ 37 ∧ byte ≠ 43 := by
  refine ⟨?_, ?_, ?_⟩ <;> (rintro rfl; exact absurd unreserved (by decide))

/-- The characters that `urlencode` keeps. -/
def isUrlKept (byte : UInt8) : Bool :=
  isAlnum byte || byte == 45 || byte == 46 || byte == 95

theorem isUrlKept_ne {byte : UInt8} (kept : isUrlKept byte = true) :
    byte ≠ 37 ∧ byte ≠ 43 := by
  refine ⟨?_, ?_⟩ <;> (rintro rfl; exact absurd kept (by decide))

/-- The code of a byte after the blanks are replaced. -/
def formByte (byte : UInt8) : Bytes :=
  if byte = 32 then [43] else encodeURIByte byte

/-- The codes of a form. -/
def formCode : SymbolCode UInt8 UInt8 where
  code := formByte
  read := urldecode
  read_nil := rfl
  read_code := by
    intro byte rest
    simp only [formByte, encodeURIByte]
    split
    next blank =>
      rw [blank]
      rfl
    next =>
      split
      next unreserved =>
        have plain := isUnreserved_ne unreserved
        exact urldecode_cons ⟨plain.2.1, plain.2.2⟩ rest
      next => exact urldecode_percentCode byte rest

/-- The codes of `urlencode`. -/
def urlCode : SymbolCode UInt8 UInt8 where
  code := urlencodeByte
  read := urldecode
  read_nil := rfl
  read_code := by
    intro byte rest
    simp only [urlencodeByte]
    split
    next kept => exact urldecode_cons (isUrlKept_ne kept) rest
    next =>
      split
      next blank =>
        rw [beq_iff_eq.mp blank]
        rfl
      next => exact urldecode_percentCode byte rest

theorem formCode_avoids {delimiter : UInt8}
    (special : isUnreserved delimiter = false)
    (other : delimiter ≠ 37 ∧ delimiter ≠ 43) (byte : UInt8) :
    delimiter ∉ formCode.code byte := by
  change delimiter ∉ formByte byte
  simp only [formByte, encodeURIByte]
  split
  · exact fun member => other.2 (List.mem_singleton.mp member)
  · split
    next unreserved =>
      rw [List.mem_singleton]
      rintro rfl
      rw [unreserved] at special
      cases special
    next =>
      have notAlnum : isAlnum delimiter = false := by
        simp only [isUnreserved, Bool.or_eq_false_iff] at special
        exact special.1
      exact not_mem_percentCode notAlnum other.1 byte

theorem urlCode_avoids {delimiter : UInt8}
    (special : isUrlKept delimiter = false)
    (other : delimiter ≠ 37 ∧ delimiter ≠ 43) (byte : UInt8) :
    delimiter ∉ urlCode.code byte := by
  change delimiter ∉ urlencodeByte byte
  simp only [urlencodeByte]
  split
  next kept =>
    rw [List.mem_singleton]
    rintro rfl
    rw [isUrlKept, kept] at special
    cases special
  next =>
    split
    · exact fun member => other.2 (List.mem_singleton.mp member)
    · have notAlnum : isAlnum delimiter = false := by
        simp only [isUrlKept, Bool.or_eq_false_iff] at special
        exact special.1.1.1
      exact not_mem_percentCode notAlnum other.1 byte

/-! ## The posted array -/

/-- What is not a percent sign is not the start of a blank. -/
theorem replaceBlanks_cons {byte : UInt8} (plain : byte ≠ 37)
    (rest : Bytes) :
    replaceBlanks (byte :: rest) = byte :: replaceBlanks rest := by
  rw [replaceBlanks]
  intro more percent
  exact absurd percent plain

theorem replaceBlanks_encodeURIByte (byte : UInt8) (rest : Bytes) :
    replaceBlanks (encodeURIByte byte ++ rest) =
      formByte byte ++ replaceBlanks rest := by
  simp only [formByte, encodeURIByte]
  by_cases unreserved : isUnreserved byte = true
  · have plain := isUnreserved_ne unreserved
    rw [if_pos unreserved, if_neg plain.1]
    exact replaceBlanks_cons plain.2.1 rest
  · rw [if_neg unreserved]
    by_cases blank : byte = 32
    · rw [if_pos blank, blank]
      rfl
    · rw [if_neg blank]
      obtain ⟨⟨high, highSmall, isHigh⟩, ⟨low, lowSmall, isLow⟩, whole⟩ :=
        halves byte
      have readHigh := hexDigit_spec high highSmall
      have readLow := hexDigit_spec low lowSmall
      rw [← isHigh] at readHigh
      rw [← isLow] at readLow
      have noBlank :
          ¬ (hexDigit (byte / 16) = 50 ∧ hexDigit (byte % 16) = 48) := by
        rintro ⟨two, zero⟩
        rw [two] at readHigh
        rw [zero] at readLow
        have isTwo : byte / 16 = 2 := (Option.some.inj readHigh.1).symm
        have isZero : byte % 16 = 0 := (Option.some.inj readLow.1).symm
        rw [isTwo, isZero] at whole
        exact blank whole.symm
      have plainHigh : hexDigit (byte / 16) ≠ 37 := by
        intro percent
        rw [percent] at readHigh
        exact absurd readHigh.2 (by decide)
      have plainLow : hexDigit (byte % 16) ≠ 37 := by
        intro percent
        rw [percent] at readLow
        exact absurd readLow.2 (by decide)
      simp only [percentCode, List.cons_append, List.nil_append]
      rw [replaceBlanks, replaceBlanks_cons plainHigh,
        replaceBlanks_cons plainLow]
      intro more _ same
      injection same with first others
      injection others with second
      exact noBlank ⟨first, second⟩

theorem replaceBlanks_encodeURIComponent (text rest : Bytes) :
    replaceBlanks (encodeURIComponent text ++ rest) =
      formCode.encode text ++ replaceBlanks rest := by
  induction text with
  | nil =>
      rfl
  | cons byte text inductionHypothesis =>
      rw [encodeURIComponent, List.flatMap_cons, List.append_assoc,
        replaceBlanks_encodeURIByte, SymbolCode.encode, List.flatMap_cons,
        List.append_assoc]
      exact congrArg (formByte byte ++ ·) inductionHypothesis

/-- A field of a form. -/
def writtenField (entry : Bytes × Bytes) : Bytes :=
  formCode.encode entry.1 ++ 61 :: formCode.encode entry.2

theorem replaceBlanks_field (entry : Bytes × Bytes) (rest : Bytes) :
    replaceBlanks
        (encodeURIComponent entry.1 ++ 61 :: encodeURIComponent entry.2 ++
          rest) =
      writtenField entry ++ replaceBlanks rest := by
  rw [List.append_assoc, List.cons_append, replaceBlanks_encodeURIComponent,
    replaceBlanks_cons (by decide), replaceBlanks_encodeURIComponent,
    writtenField, List.append_assoc, List.cons_append]

/-- The fields of a form, with `&` between them. -/
theorem param_eq (entries : List (Bytes × Bytes)) :
    param entries = implode 38 (entries.map writtenField) := by
  induction entries with
  | nil =>
      rfl
  | cons entry rest inductionHypothesis =>
      cases rest with
      | nil =>
          have single := replaceBlanks_field entry []
          rw [List.append_nil] at single
          simp only [param, implode, List.map_cons, List.map_nil,
            List.intercalate_singleton]
          rw [single, replaceBlanks, List.append_nil]
      | cons second others =>
          simp only [param, implode, List.map_cons] at inductionHypothesis ⊢
          rw [List.intercalate_cons_cons, List.intercalate_cons_cons,
            List.append_assoc, replaceBlanks_field, List.singleton_append,
            replaceBlanks_cons (by decide), inductionHypothesis,
            List.append_assoc, List.singleton_append]

/-- The reader of a form undoes the codes, and they avoid its delimiters. -/
structure IsFormCode (symbols : SymbolCode UInt8 UInt8) : Prop where
  read : symbols.read = urldecode
  avoids : ∀ byte, 38 ∉ symbols.code byte ∧ 61 ∉ symbols.code byte

/-- A field of a form in some codes. -/
def codedField
    (symbols : SymbolCode UInt8 UInt8) (entry : Bytes × Bytes) : Bytes :=
  symbols.encode entry.1 ++ 61 :: symbols.encode entry.2

theorem IsFormCode.formField_coded
    {symbols : SymbolCode UInt8 UInt8} (isFormCode : IsFormCode symbols)
    (entry : Bytes × Bytes) : formField (codedField symbols entry) = entry := by
  have whole : 61 ∉ symbols.encode entry.1 :=
    symbols.not_mem_encode (fun byte => (isFormCode.avoids byte).2) entry.1
  rw [formField, codedField, splitPair_append whole, ← isFormCode.read]
  exact Prod.ext (symbols.read_encode entry.1) (symbols.read_encode entry.2)

theorem IsFormCode.whole_coded
    {symbols : SymbolCode UInt8 UInt8} (isFormCode : IsFormCode symbols)
    (entry : Bytes × Bytes) : 38 ∉ codedField symbols entry := by
  have avoids := fun byte => (isFormCode.avoids byte).1
  rw [codedField, List.mem_append, List.mem_cons, not_or, not_or]
  exact
    ⟨symbols.not_mem_encode avoids entry.1, by decide,
      symbols.not_mem_encode avoids entry.2⟩

/-- A form without fields has no parameters. -/
theorem formParams_nil (limit : Nat) : formParams limit [] = [] := by
  have nameless : (formField []).1 = [] := by decide
  have ignored : registerVariable [] (formField []) = [] := by
    rw [registerVariable, if_pos nameless]
  cases limit with
  | zero => rfl
  | succ limit => simp [formParams, explode, ignored]

/-- The fields of a form are read in order, up to the limit. -/
theorem IsFormCode.formParams_coded
    {symbols : SymbolCode UInt8 UInt8} (isFormCode : IsFormCode symbols)
    (limit : Nat) (entries : List (Bytes × Bytes)) :
    formParams limit (implode 38 (entries.map (codedField symbols))) =
      (entries.take limit).foldl registerVariable [] := by
  cases entries with
  | nil =>
      rw [List.take_nil]
      exact formParams_nil limit
  | cons entry rest =>
      have whole :
          ∀ field ∈ (entry :: rest).map (codedField symbols), 38 ∉ field := by
        intro field member
        obtain ⟨origin, _, rfl⟩ := List.mem_map.mp member
        exact isFormCode.whole_coded origin
      have split :
          explode 38 (implode 38 ((entry :: rest).map (codedField symbols))) =
            (entry :: rest).map (codedField symbols) :=
        List.splitOn_intercalate 38 whole (by simp)
      have readBack :
          (((entry :: rest).map (codedField symbols)).take limit).map
              formField =
            (entry :: rest).take limit := by
        rw [← List.map_take, List.map_map]
        refine Eq.trans (List.map_congr_left ?_) (List.map_id _)
        exact fun origin _ => isFormCode.formField_coded origin
      rw [formParams, split, readBack]

theorem isFormCode_formCode : IsFormCode formCode where
  read := rfl
  avoids := fun byte =>
    ⟨formCode_avoids (by decide) (by decide) byte,
      formCode_avoids (by decide) (by decide) byte⟩

theorem formParams_param (limit : Nat) (entries : List (Bytes × Bytes)) :
    formParams limit (param entries) =
      (entries.take limit).foldl registerVariable [] := by
  rw [param_eq]
  exact isFormCode_formCode.formParams_coded limit entries

/-- The parameters that hold the posted documents. -/
def requestsParams : List Bytes → Params
  | [] => []
  | documents => [(bytes "requests", .array (documents.map .text))]

theorem registerVariable_requests (documents : List Bytes)
    (document : Bytes) :
    registerVariable (requestsParams documents)
        (bytes "requests[]", document) =
      requestsParams (documents ++ [document]) := by
  have named : arrayName (bytes "requests[]") = some (bytes "requests") := by
    decide
  have given : bytes "requests[]" ≠ [] := by decide
  simp only [registerVariable, if_neg given, named]
  cases documents with
  | nil => rfl
  | cons first rest =>
      have present :
          Params.value (requestsParams (first :: rest)) (bytes "requests") =
            some (.array ((first :: rest).map .text)) := rfl
      have has :
          Params.has (requestsParams (first :: rest)) (bytes "requests") =
            true := rfl
      rw [present]
      simp only [setParam, has, if_true]
      simp [requestsParams]

/-- The documents of a page arrive as an array of texts, or as no parameter if
there are none. -/
theorem formParams_requestsParam (limit : Nat) (documents : List Bytes) :
    formParams limit (requestsParam documents) =
      requestsParams (documents.take limit) := by
  have loop :
      ∀ (before after : List Bytes),
        (after.map (fun document =>
              (bytes "requests[]", document))).foldl registerVariable
            (requestsParams before) =
          requestsParams (before ++ after) := by
    intro before after
    induction after generalizing before with
    | nil =>
        rw [List.append_nil]
        rfl
    | cons document rest inductionHypothesis =>
        rw [List.map_cons, List.foldl_cons, registerVariable_requests,
          inductionHypothesis, List.append_assoc, List.singleton_append]
  rw [requestsParam, formParams_param, ← List.map_take]
  exact loop [] (documents.take limit)

/-! ## Queries -/

/-- A name that means the same in a URL and to the server. -/
def isPlainName (name : Bytes) : Bool :=
  name != [] &&
    name.all (fun byte => isAlnum byte || byte == 45 || byte == 95)

/-- The query of named texts. -/
def queryText (entries : List (Bytes × Bytes)) : Bytes :=
  implode 38 (entries.map (fun entry => entry.1 ++ 61 :: urlencode entry.2))

/-- Named texts as parameters. -/
def textParams (entries : List (Bytes × Bytes)) : Params :=
  entries.map (fun entry => (entry.1, .text entry.2))

theorem has_append {first second : Params} {name : Bytes} :
    (first ++ second).has name = (first.has name || second.has name) := by
  simp only [Params.has, Params.value]
  rw [List.lookup_append]
  cases first.lookup name <;> rfl

theorem has_eq_false {params : Params} {name : Bytes}
    (missing : name ∉ params.map Prod.fst) : params.has name = false := by
  induction params with
  | nil =>
      rfl
  | cons entry rest inductionHypothesis =>
      rw [List.map_cons, List.mem_cons, not_or] at missing
      have later := inductionHypothesis missing.2
      have different : (name == entry.1) = false :=
        beq_eq_false_iff_ne.mpr missing.1
      simp only [Params.has, Params.value] at later ⊢
      rw [List.lookup_cons, different]
      exact later

theorem isPlainName_bytes {name : Bytes} (plain : isPlainName name = true) :
    name ≠ [] ∧
      ∀ byte ∈ name,
        byte ≠ 37 ∧ byte ≠ 43 ∧ byte ∉ [(35 : UInt8), 38, 61, 63, 93] := by
  simp only [isPlainName, Bool.and_eq_true, List.all_eq_true, bne_iff_ne]
    at plain
  refine ⟨plain.1, ?_⟩
  intro byte member
  have kept := plain.2 byte member
  simp only [List.mem_cons, List.not_mem_nil, or_false, not_or]
  refine ⟨?_, ?_, ?_, ?_, ?_, ?_, ?_⟩ <;>
    (rintro rfl; exact absurd kept (by decide))

/-- A plain name is registered as it is. -/
theorem registerVariable_eq
    {params : Params} {name : Bytes} (plain : isPlainName name = true)
    (value : Bytes) :
    registerVariable params (name, value) =
      setParam params name (.text value) := by
  obtain ⟨given, special⟩ := isPlainName_bytes plain
  have noArray : arrayName name = none := by
    rw [arrayName, if_neg]
    rintro ⟨front, isName⟩
    have closing : 93 ∈ name := by
      rw [← isName]
      exact List.mem_append_right _ (by decide)
    exact (special 93 closing).2.2 (by decide)
  simp only [registerVariable, if_neg given, noArray]

/-- A new plain name is registered behind the others. -/
theorem registerVariable_plain {params : Params} {name : Bytes}
    (plain : isPlainName name = true) (missing : params.has name = false)
    (value : Bytes) :
    registerVariable params (name, value) =
      params ++ [(name, .text value)] := by
  rw [registerVariable_eq plain]
  simp only [setParam, missing, Bool.false_eq_true, if_false]

theorem foldl_registerVariable {entries : List (Bytes × Bytes)}
    (plain : ∀ entry ∈ entries, isPlainName entry.1 = true)
    (different : (entries.map Prod.fst).Nodup) {before : Params}
    (missing : ∀ entry ∈ entries, before.has entry.1 = false) :
    entries.foldl registerVariable before =
      before ++ textParams entries := by
  induction entries generalizing before with
  | nil =>
      exact (List.append_nil before).symm
  | cons entry rest inductionHypothesis =>
      obtain ⟨name, value⟩ := entry
      rw [List.map_cons, List.nodup_cons] at different
      have isPlain := plain _ (List.mem_cons_self ..)
      have isNew := missing _ (List.mem_cons_self ..)
      have later :
          ∀ other ∈ rest,
            (before ++ [(name, .text value)] : Params).has other.1 =
              false := by
        intro other member
        have distinct : other.1 ≠ name := by
          intro same
          exact
            different.1
              (List.mem_map.mpr ⟨other, member, same⟩)
        rw [has_append, missing other (List.mem_cons_of_mem _ member),
          Bool.false_or]
        apply has_eq_false
        simpa using distinct
      rw [List.foldl_cons, registerVariable_plain isPlain isNew,
        inductionHypothesis
          (fun other member => plain other (List.mem_cons_of_mem _ member))
          different.2 later,
        List.append_assoc]
      rfl

/-- A query of plain names is read back. -/
theorem formParams_queryText {limit : Nat} {entries : List (Bytes × Bytes)}
    (plain : ∀ entry ∈ entries, isPlainName entry.1 = true)
    (different : (entries.map Prod.fst).Nodup)
    (few : entries.length ≤ limit) (given : entries ≠ []) :
    formParams limit (queryText entries) = textParams entries := by
  have whole :
      ∀ field ∈
          entries.map (fun entry => entry.1 ++ 61 :: urlencode entry.2),
        38 ∉ field := by
    intro field member
    obtain ⟨entry, known, rfl⟩ := List.mem_map.mp member
    obtain ⟨_, special⟩ := isPlainName_bytes (plain entry known)
    rw [List.mem_append, List.mem_cons, not_or, not_or]
    exact
      ⟨fun inside => (special 38 inside).2.2 (by decide), by decide,
        urlCode.not_mem_encode (urlCode_avoids (by decide) (by decide)) entry.2⟩
  have split :
      explode 38 (queryText entries) =
        entries.map (fun entry => entry.1 ++ 61 :: urlencode entry.2) :=
    List.splitOn_intercalate 38 whole (by simpa using given)
  have readBack :
      ∀ entry ∈ entries,
        formField (entry.1 ++ 61 :: urlencode entry.2) = entry := by
    intro entry known
    obtain ⟨_, special⟩ := isPlainName_bytes (plain entry known)
    have nameWhole : 61 ∉ entry.1 :=
      fun inside => (special 61 inside).2.2 (by decide)
    rw [formField, splitPair_append nameWhole]
    exact
      Prod.ext
        (urldecode_plain
          (fun byte inside =>
            ⟨(special byte inside).1, (special byte inside).2.1⟩))
        (urlCode.read_encode entry.2)
  have fields :
      (entries.map (fun entry => entry.1 ++ 61 :: urlencode entry.2)).map
          formField =
        entries := by
    rw [List.map_map]
    exact (List.map_congr_left readBack).trans (List.map_id entries)
  rw [formParams, split, List.take_of_length_le (by simpa using few), fields]
  have registered :=
    @foldl_registerVariable entries plain different [] (fun _ _ => rfl)
  simpa using registered

/-! ## Redirections -/

/-- The query of a location; a URL ends before a fragment. -/
def locationQuery (location : Bytes) : Bytes :=
  (splitPair 63 (splitPair 35 location).1).2

/-- The request of a browser that follows a redirection. -/
def followRedirect (limit : Nat) (location : Bytes) : HttpRequest where
  get := formParams limit (locationQuery location)
  post := []
  request := formParams limit (locationQuery location)

/-- Nothing in the query of plain names ends a URL. -/
theorem not_mem_queryText {entries : List (Bytes × Bytes)}
    (plain : ∀ entry ∈ entries, isPlainName entry.1 = true) :
    35 ∉ queryText entries := by
  rw [queryText, implode]
  apply not_mem_intercalate (by decide)
  intro field member
  obtain ⟨entry, known, rfl⟩ := List.mem_map.mp member
  obtain ⟨_, special⟩ := isPlainName_bytes (plain entry known)
  rw [List.mem_append, List.mem_cons, not_or, not_or]
  exact
    ⟨fun inside => (special 35 inside).2.2 (by decide), by decide,
      urlCode.not_mem_encode (urlCode_avoids (by decide) (by decide))
        entry.2⟩

/-- The parameters of a request in its URL, without what it posts. -/
def HttpRequest.view (request : HttpRequest) : HttpRequest where
  get := request.get
  post := []
  request := request.get

end LtlsKitting.Web
