import LtlsKitting.Operations.Loading

/-!
# Newline conventions of a script

A script is split at line feeds, so a line that ends in a carriage return and
a line feed keeps the carriage return.  The lines of tags and of items count
on it: their last byte is cut off.  The other lines do not, except that users
keep it in their last field, and that a blank line of tags or of users is not
blank any more.
-/

namespace LtlsKitting.Operations

open LtlsKitting.Php LtlsKitting.Store LtlsKitting.Interaction

/-- The lines, joined without a terminator after the last one. -/
def joinedText (newline : Bytes) (lines : List Bytes) : Bytes :=
  newline.intercalate lines

/-- The lines, each with its terminator. -/
def terminatedText (newline : Bytes) (lines : List Bytes) : Bytes :=
  lines.flatMap (fun line => line ++ newline)

/-- The store after a text was posted as a script. -/
def loadedStore
    (server : Server) (messages : List Message) (db : Db) (text : Bytes) :
    Db :=
  (initScript messages (.text text)).exec (perform server) db

/-- The class name of an item line, before its last byte is cut off. -/
def itemName (line : Bytes) : Option Bytes :=
  match explode 44 line with
  | _ :: _ :: _ :: _ :: first :: more => some (implode 44 (first :: more))
  | _ => none

/-- What is required of a line that is neither a comment nor a header. -/
def SafeContent (mode : Option Mode) (line : Bytes) : Prop :=
  match mode with
  | some .tags => False
  | some .items =>
      ∀ name ∈ itemName line,
        leadingName (withoutLastByte name) = leadingName name
  | some .users => 3 ≤ (explode 44 line).length
  | none | some .inventory | some .order | some .kit => True

/-- The line means the same with a carriage return at its end. -/
def NewlineSafe (mode : Option Mode) (line : Bytes) : Prop :=
  line.head? = some 35 ∨ isHeader line = true ∨ SafeContent mode line

instance : ∀ mode line, Decidable (SafeContent mode line)
  | some .items, line =>
      inferInstanceAs
        (Decidable
          (∀ name ∈ itemName line,
            leadingName (withoutLastByte name) = leadingName name))
  | some .tags, _ => inferInstanceAs (Decidable False)
  | some .users, line =>
      inferInstanceAs (Decidable (3 ≤ (explode 44 line).length))
  | some .inventory, _ => inferInstanceAs (Decidable True)
  | some .order, _ => inferInstanceAs (Decidable True)
  | some .kit, _ => inferInstanceAs (Decidable True)
  | none, _ => inferInstanceAs (Decidable True)

instance (mode : Option Mode) (line : Bytes) :
    Decidable (NewlineSafe mode line) :=
  inferInstanceAs
    (Decidable
      (line.head? = some 35 ∨ isHeader line = true ∨ SafeContent mode line))

/-- Every line of a script that starts in the given section is safe. -/
def SafeScript : Option Mode → List Bytes → Prop
  | _, [] => True
  | mode, line :: rest =>
      NewlineSafe mode line ∧ SafeScript (nextMode mode line) rest

/-- The last line of a script that starts in the given section is safe. -/
def SafeEnd : Option Mode → List Bytes → Prop
  | _, [] => True
  | mode, [line] => NewlineSafe mode line
  | mode, line :: next :: rest => SafeEnd (nextMode mode line) (next :: rest)

instance SafeScript.decidable :
    ∀ mode lines, Decidable (SafeScript mode lines)
  | _, [] => inferInstanceAs (Decidable True)
  | mode, line :: rest =>
      have := SafeScript.decidable (nextMode mode line) rest
      inferInstanceAs
        (Decidable
          (NewlineSafe mode line ∧ SafeScript (nextMode mode line) rest))

/-! ## One line -/

/-- The variables that the lines depend on are the same. -/
structure LoopState.Alike (first second : LoopState) : Prop where
  mode : first.mode = second.mode
  orderId : first.orderId = second.orderId
  kitId : first.kitId = second.kitId

section

variable {server : Server} {db : Db}

theorem lineStore_alike {first second : LoopState}
    (alike : first.Alike second) (line : Bytes) :
    lineStore server db first line = lineStore server db second line := by
  simp only [lineStore, contentStore, alike.mode, alike.orderId, alike.kitId]

theorem lineState_alike {first second : LoopState}
    (alike : first.Alike second) (line : Bytes) :
    (lineState db first line).Alike (lineState db second line) := by
  simp only [lineState]
  split
  · exact ⟨alike.mode, alike.orderId, alike.kitId⟩
  · split
    · split
      · simp only [headerState, alike.orderId]
        split
        · exact ⟨rfl, rfl, rfl⟩
        · split
          · split
            · exact ⟨rfl, rfl, rfl⟩
            · exact ⟨rfl, rfl, alike.kitId⟩
          · exact ⟨rfl, rfl, alike.kitId⟩
      · exact alike
    · exact alike

/-! ## A carriage return at the end of a line -/

theorem isComment_append_return {line : Bytes} (nonempty : line ≠ []) :
    isComment (line ++ [13]) = isComment line := by
  cases line with
  | nil => exact absurd rfl nonempty
  | cons first rest => simp [isComment]

theorem isHeader_append_return {line : Bytes} (nonempty : line ≠ []) :
    isHeader (line ++ [13]) = isHeader line := by
  cases line with
  | nil => exact absurd rfl nonempty
  | cons first rest => simp [isHeader]

theorem inventoryFields_append_return (line : Bytes) :
    inventoryFields (line ++ [13]) =
      (inventoryFields line).map
        (fun fields => ⟨fields.name, fields.quantity ++ [13]⟩) := by
  obtain ⟨fields, last, split, splitLonger⟩ :=
    @explode_append 44 [13] (by decide) line
  simp only [inventoryFields, split, splitLonger]
  cases fields with
  | nil => rfl
  | cons name more =>
      cases more with
      | nil => rfl
      | cons next more =>
          cases more with
          | nil => rfl
          | cons other more => rfl

theorem loadInventory_return (fields : InventoryFields) :
    loadInventory server db ⟨fields.name, fields.quantity ++ [13]⟩ =
      loadInventory server db fields := by
  simp only [loadInventory, intval_append_return]

/-- With a carriage return, the whole class name is used. -/
theorem itemFields_append_return (line : Bytes) :
    itemFields (line ++ [13]) =
      (itemFields line).bind (fun fields =>
        (itemName line).map (fun name => { fields with className := name })) := by
  obtain ⟨fields, last, split, splitLonger⟩ :=
    @explode_append 44 [13] (by decide) line
  have cut :
      ∀ more : List Bytes,
        withoutLastByte (implode 44 (more ++ [last ++ [13]])) =
          implode 44 (more ++ [last]) := by
    intro more
    rw [← implode_append_last, withoutLastByte, List.dropLast_concat]
  simp only [itemFields, itemName, split, splitLonger]
  rcases fields with
    _ | ⟨target, _ | ⟨count, _ | ⟨tag, _ | ⟨archived, more⟩⟩⟩⟩
  · rfl
  · rfl
  · rfl
  · rfl
  · cases more with
    | nil =>
        have whole := cut []
        simp only [List.nil_append] at whole
        simp [whole]
    | cons first more =>
        have whole := cut (first :: more)
        simp only [List.cons_append] at whole
        simp [whole]

theorem loadItem_congr {first second : ItemFields} (orderId kitId : Option Int)
    (target : first.target = second.target)
    (count : first.count = second.count) (tag : first.tag = second.tag)
    (archived : first.archived = second.archived)
    (name : leadingName first.className = leadingName second.className) :
    loadItem server db orderId kitId first =
      loadItem server db orderId kitId second := by
  simp only [loadItem, itemGroup, target, count, tag, archived, name]

/-- The uncut name of an item line. -/
theorem itemFields_className {line : Bytes} {fields : ItemFields}
    (split : itemFields line = some fields) :
    ∃ name, itemName line = some name ∧
      fields.className = withoutLastByte name := by
  rcases exploded : explode 44 line with
    _ | ⟨target, _ | ⟨count, _ | ⟨tag, _ | ⟨archived, _ | ⟨first, more⟩⟩⟩⟩⟩
  · simp [itemFields, exploded] at split
  · simp [itemFields, exploded] at split
  · simp [itemFields, exploded] at split
  · simp [itemFields, exploded] at split
  · simp [itemFields, exploded] at split
  · simp only [itemFields, exploded] at split
    refine ⟨implode 44 (first :: more), ?_, ?_⟩
    · simp only [itemName, exploded]
    · rw [← Option.some.inj split]

/-- A third field of a user takes the carriage return. -/
theorem insertUser_return {line : Bytes}
    (long : 3 ≤ (explode 44 line).length) :
    db.insertUser server (pgvalue ((explode 44 (line ++ [13])).headD []))
        ((explode 44 (line ++ [13]))[1]?.map pgvalue) =
      db.insertUser server (pgvalue ((explode 44 line).headD []))
        ((explode 44 line)[1]?.map pgvalue) := by
  obtain ⟨fields, last, split, splitLonger⟩ :=
    @explode_append 44 [13] (by decide) line
  rw [split] at long ⊢
  rw [splitLonger]
  rcases fields with _ | ⟨name, _ | ⟨password, more⟩⟩
  · simp at long
  · simp at long
  · rfl

theorem contentStore_return {state : LoopState} {line : Bytes}
    (safe : SafeContent state.mode line) :
    contentStore server db state (line ++ [13]) =
      contentStore server db state line := by
  have inventory :
      contentStore server db { state with mode := some .inventory }
          (line ++ [13]) =
        contentStore server db { state with mode := some .inventory }
          line := by
    simp only [contentStore]
    rw [inventoryFields_append_return]
    cases inventoryFields line with
    | none => rfl
    | some fields => exact loadInventory_return fields
  simp only [contentStore]
  cases found : state.mode with
  | none => exact inventory
  | some mode =>
      rw [found] at safe
      cases mode with
      | inventory => exact inventory
      | tags => exact safe.elim
      | order => rfl
      | kit => rfl
      | users => exact insertUser_return safe
      | items =>
          dsimp only
          rw [itemFields_append_return]
          cases split : itemFields line with
          | none =>
              rfl
          | some fields =>
              obtain ⟨name, isName, cut⟩ := itemFields_className split
              rw [isName]
              apply loadItem_congr
              · rfl
              · rfl
              · rfl
              · rfl
              · rw [cut]
                exact (safe name isName).symm

theorem contentStore_nil {state : LoopState}
    (safe : SafeContent state.mode []) :
    contentStore server db state [] = db := by
  simp only [contentStore]
  cases found : state.mode with
  | none => rfl
  | some mode =>
      rw [found] at safe
      cases mode with
      | inventory => rfl
      | tags => exact safe.elim
      | order => rfl
      | kit => rfl
      | items => rfl
      | users => exact absurd safe (by decide)

/-- A safe line leaves the same store with a carriage return at its end. -/
theorem lineStore_return {state : LoopState} {line : Bytes}
    (safe : NewlineSafe state.mode line) :
    lineStore server db state (line ++ [13]) =
      lineStore server db state line := by
  cases line with
  | nil =>
      have content : SafeContent state.mode [] := by
        rcases safe with comment | header | content
        · cases comment
        · cases header
        · exact content
      have blank : lineStore server db state [] = db := rfl
      have returned :
          lineStore server db state ([] ++ [13]) =
            contentStore server db state ([] ++ [13]) := rfl
      rw [blank, returned, contentStore_return content,
        contentStore_nil content]
  | cons first rest =>
      simp only [lineStore]
      rw [isComment_append_return (List.cons_ne_nil first rest),
        isHeader_append_return (List.cons_ne_nil first rest),
        sectionHeader_append_return]
      by_cases comment : isComment (first :: rest)
      · rw [if_pos comment, if_pos comment]
      · rw [if_neg comment, if_neg comment]
        by_cases header : isHeader (first :: rest)
        · rw [if_pos header, if_pos header]
        · rw [if_neg header, if_neg header]
          apply contentStore_return
          rcases safe with isComment | isHeader | content
          · exact absurd (by simp_all [Operations.isComment]) comment
          · exact absurd isHeader header
          · exact content

theorem lineState_return (state : LoopState) (line : Bytes) :
    (lineState db state (line ++ [13])).Alike (lineState db state line) := by
  cases line with
  | nil =>
      exact ⟨rfl, rfl, rfl⟩
  | cons first rest =>
      simp only [lineState]
      rw [isComment_append_return (List.cons_ne_nil first rest),
        isHeader_append_return (List.cons_ne_nil first rest),
        sectionHeader_append_return]
      split
      · exact ⟨rfl, rfl, rfl⟩
      · exact ⟨rfl, rfl, rfl⟩

end

/-! ## Whole scripts -/

theorem LoopState.Alike.trans {first second third : LoopState}
    (alike : first.Alike second) (later : second.Alike third) :
    first.Alike third :=
  ⟨alike.mode.trans later.mode, alike.orderId.trans later.orderId,
    alike.kitId.trans later.kitId⟩

section

variable {server : Server}

/-- An empty line at the end is a comment. -/
theorem run_blank (current : LoopState × Db) (lines : List Bytes) :
    (runActions (lineStep server) current (lines ++ [[]])).2 =
      (runActions (lineStep server) current lines).2 := by
  rw [runActions_append]
  rfl

/-- The lines of a text with carriage returns that is not terminated. -/
def returnedLines : List Bytes → List Bytes
  | [] => [[]]
  | [line] => [line]
  | line :: next :: rest => (line ++ [13]) :: returnedLines (next :: rest)

/-- Safe lines leave the same store with carriage returns. -/
theorem run_returned {first second : LoopState}
    (alike : first.Alike second) (db : Db) {lines : List Bytes}
    (safe : SafeScript second.mode lines) :
    (runActions (lineStep server) (first, db)
        (lines.map (fun line => line ++ [13]))).2 =
      (runActions (lineStep server) (second, db) lines).2 := by
  induction lines generalizing first second db with
  | nil =>
      rfl
  | cons line rest inductionHypothesis =>
      have stateAlike :
          (lineState db first (line ++ [13])).Alike
            (lineState db second line) :=
        (lineState_alike alike _).trans (lineState_return second line)
      have safeLater :
          SafeScript (lineState db second line).mode rest := by
        rw [mode_lineState]
        exact safe.2
      simp only [List.map_cons, runActions_cons, lineStep]
      rw [lineStore_alike alike, lineStore_return safe.1]
      exact inductionHypothesis stateAlike _ safeLater

/-- If the last line is safe, its terminator makes no difference. -/
theorem run_returnedLines {state : LoopState} (db : Db) {lines : List Bytes}
    (safe : SafeEnd state.mode lines) :
    (runActions (lineStep server) (state, db) (returnedLines lines)).2 =
      (runActions (lineStep server) (state, db)
        (lines.map (fun line => line ++ [13]))).2 := by
  induction lines generalizing state db with
  | nil =>
      rfl
  | cons line rest inductionHypothesis =>
      cases rest with
      | nil =>
          exact (lineStore_return safe).symm
      | cons next rest =>
          have safeLater :
              SafeEnd (lineState db state (line ++ [13])).mode
                (next :: rest) := by
            rw [(lineState_return state line).mode, mode_lineState]
            exact safe
          simp only [returnedLines, List.map_cons, runActions_cons]
          exact inductionHypothesis _ safeLater

end

theorem nextMode_return (mode : Option Mode) (line : Bytes) :
    nextMode mode (line ++ [13]) = nextMode mode line := by
  have same := (@lineState_return Db.empty ⟨mode, none, none, []⟩ line).mode
  rw [mode_lineState, mode_lineState] at same
  exact same

theorem foldl_nextMode_return (mode : Option Mode) (lines : List Bytes) :
    (lines.map (fun line => line ++ [13])).foldl nextMode mode =
      lines.foldl nextMode mode := by
  induction lines generalizing mode with
  | nil =>
      rfl
  | cons line rest inductionHypothesis =>
      rw [List.map_cons, List.foldl_cons, List.foldl_cons, nextMode_return,
        inductionHypothesis]

/-! ## Texts -/

theorem explode_terminated {lines : List Bytes}
    (clean : ∀ line ∈ lines, 10 ∉ line) :
    explode 10 (terminatedText [10] lines) = lines ++ [[]] := by
  have split :=
    @explode_lines lines 10 []
      (fun line member => by simpa using clean line member)
  simpa [terminatedText] using split

theorem explode_terminated_return {lines : List Bytes}
    (clean : ∀ line ∈ lines, 10 ∉ line) :
    explode 10 (terminatedText [13, 10] lines) =
      lines.map (fun line => line ++ [13]) ++ [[]] := by
  have split :=
    @explode_lines lines 10 [13]
      (fun line member => by simpa using clean line member)
  simpa [terminatedText] using split

theorem explode_joined_return {lines : List Bytes}
    (clean : ∀ line ∈ lines, 10 ∉ line) :
    explode 10 (joinedText [13, 10] lines) = returnedLines lines := by
  induction lines with
  | nil =>
      simp [joinedText, explode, returnedLines]
  | cons line rest inductionHypothesis =>
      have first : 10 ∉ line := clean line (List.mem_cons_self ..)
      have returned : 10 ∉ line ++ [13] := by
        simpa using first
      cases rest with
      | nil =>
          simpa [joinedText, explode, returnedLines] using
            List.splitOn_eq_singleton first
      | cons next rest =>
          have later :=
            inductionHypothesis
              (fun other member => clean other (List.mem_cons_of_mem _ member))
          have parts :
              line ++ [13, 10] ++ joinedText [13, 10] (next :: rest) =
                (line ++ [13]) ++ 10 :: joinedText [13, 10] (next :: rest) := by
            simp
          rw [joinedText, List.intercalate_cons_of_ne_nil
            (List.cons_ne_nil next rest)]
          rw [joinedText] at parts later
          rw [parts, explode,
            List.splitOn_append_cons_self_of_not_mem returned]
          rw [explode] at later
          rw [later]
          rfl

theorem SafeScript.safeEnd {mode : Option Mode} {lines : List Bytes}
    (safe : SafeScript mode lines) :
    SafeEnd mode lines := by
  induction lines generalizing mode with
  | nil =>
      trivial
  | cons line rest inductionHypothesis =>
      cases rest with
      | nil => exact safe.1
      | cons next rest => exact inductionHypothesis safe.2

section

variable (server : Server) (messages : List Message) (db : Db)

theorem loadedStore_eq (text : Bytes) :
    loadedStore server messages db text =
      (runActions (lineStep server) (LoopState.start messages, db.truncate)
        (explode 10 text)).2 :=
  exec_initScript server db messages (.text text)

variable {lines : List Bytes} (clean : ∀ line ∈ lines, 10 ∉ line)
include clean

/-- Line feeds: the last terminator adds an empty line. -/
theorem loadedStore_feeds :
    loadedStore server messages db (terminatedText [10] lines) =
      loadedStore server messages db (joinedText [10] lines) := by
  rw [loadedStore_eq, loadedStore_eq, explode_terminated clean, run_blank]
  cases lines with
  | nil =>
      rfl
  | cons line rest =>
      rw [joinedText, explode,
        List.splitOn_intercalate 10 clean (List.cons_ne_nil line rest)]

theorem loadedStore_returns
    (safe : SafeEnd (some .inventory) lines) :
    loadedStore server messages db (terminatedText [13, 10] lines) =
      loadedStore server messages db (joinedText [13, 10] lines) := by
  rw [loadedStore_eq, loadedStore_eq, explode_terminated_return clean,
    run_blank, explode_joined_return clean, run_returnedLines _ safe]

/-- All four texts of a list of lines.  Line feeds alone always agree.  With
carriage returns the last terminator makes no difference if the last line is
safe, and carriage returns make none if every line is. -/
theorem newline_conventions_agree :
    loadedStore server messages db (terminatedText [10] lines) =
        loadedStore server messages db (joinedText [10] lines) ∧
      (SafeEnd (some .inventory) lines →
        loadedStore server messages db (terminatedText [13, 10] lines) =
          loadedStore server messages db (joinedText [13, 10] lines)) ∧
      (SafeScript (some .inventory) lines →
        loadedStore server messages db (terminatedText [13, 10] lines) =
            loadedStore server messages db (terminatedText [10] lines) ∧
          loadedStore server messages db (joinedText [13, 10] lines) =
            loadedStore server messages db (joinedText [10] lines)) := by
  have feeds := loadedStore_feeds server messages db clean
  refine ⟨feeds, loadedStore_returns server messages db clean, ?_⟩
  intro safe
  have returned :
      loadedStore server messages db (terminatedText [13, 10] lines) =
        loadedStore server messages db (terminatedText [10] lines) := by
    rw [loadedStore_eq, loadedStore_eq, explode_terminated clean,
      explode_terminated_return clean, run_blank, run_blank]
    exact run_returned ⟨rfl, rfl, rfl⟩ _ safe
  refine ⟨returned, ?_⟩
  rw [← loadedStore_returns server messages db clean safe.safeEnd, returned,
    feeds]

end

/-- Lines of every section but the tags, all of them safe. -/
def safeLines : List Bytes :=
  [bytes "Nut,40", [], bytes "[ORDER]", bytes "[KIT]", bytes "[ITEMS]",
    bytes "3,1,,f,Bolt (short)", bytes "[USERS]", bytes "# name,password,note",
    bytes "ann,secret,first shift"]

theorem newline_conventions_agree_safeLines :
    (∀ line ∈ safeLines, 10 ∉ line) ∧
      SafeScript (some .inventory) safeLines ∧
      loadedStore Server.plain [] Db.empty
          (joinedText [13, 10] safeLines) =
        loadedStore Server.plain [] Db.empty (joinedText [10] safeLines) := by
  have clean : ∀ line ∈ safeLines, 10 ∉ line := by
    decide
  have safe : SafeScript (some .inventory) safeLines := by
    decide
  exact
    ⟨clean, safe,
      ((newline_conventions_agree Server.plain [] Db.empty clean).2.2 safe).2⟩

/-- A tag loses its last byte if its line ends in a line feed alone. -/
theorem feed_cuts_tag :
    ¬ ∀ (server : Server) (messages : List Message) (db : Db)
        (lines : List Bytes),
        (∀ line ∈ lines, 10 ∉ line ∧ 13 ∉ line) →
          (loadedStore server messages db (joinedText [10] lines)).tags =
            (loadedStore server messages db
              (joinedText [13, 10] lines)).tags ∧
          (loadedStore server messages db (terminatedText [10] lines)).tags =
            (loadedStore server messages db
              (terminatedText [13, 10] lines)).tags := by
  intro agree
  have clean :
      ∀ line ∈ [bytes "[TAGS]", bytes "ab"], 10 ∉ line ∧ 13 ∉ line := by
    decide
  have same := (agree Server.plain [] Db.empty _ clean).2
  have cut :
      (loadedStore Server.plain [] Db.empty
        (terminatedText [10] [bytes "[TAGS]", bytes "ab"])).tags =
        [bytes "a"] := by
    decide
  have whole :
      (loadedStore Server.plain [] Db.empty
        (terminatedText [13, 10] [bytes "[TAGS]", bytes "ab"])).tags =
        [bytes "ab"] := by
    decide
  rw [cut, whole] at same
  exact absurd same (by decide)

end LtlsKitting.Operations
