import LtlsKitting.Client.Mirror

/-!
# Rows that change their place

The handler should move a row to the place of its goal.  Since the search for
the row never finds it, a row is kept only if it stands in front when its goal
is reached.  Until then it waits there, and every goal that passes is written
into it; a goal with a tag replaces it, and so does every goal if the row is
locked.  The first row does not wait: the first goal is written into it
whatever its id is.
-/

namespace LtlsKitting.Client

open LtlsKitting.Php LtlsKitting.Store

/-- The goals that pass the row at the given place while it waits for its own
goal; `none` if the row does not get there. -/
def waited : Table → List Goal → Nat → Option (List Goal)
  | row :: rows, goal :: goals, place =>
      if goal.id = row.id then
        match place with
        | 0 => some []
        | place + 1 => waited rows goals place
      else if goalTag goal = none ∧ (inputText row).isSome then
        match place with
        | 0 => (waited (row :: rows) goals 0).map (goal :: ·)
        | place + 1 => waited (row :: rows) goals (place + 1)
      else
        none
  | _, _, _ => none

/-- The same for the whole table, whose first row does not wait. -/
def passedBy : Table → List Goal → Nat → Option (List Goal)
  | row :: _, goal :: _, 0 => if goal.id = row.id then some [] else none
  | _ :: rows, _ :: goals, place + 1 => waited rows goals place
  | _, _, _ => none

/-- The goals are written into the row one after the other. -/
def settleAll (browser : Browser) (goals : List Goal) (row : Row) : Row :=
  goals.foldl (fun current goal => settleTr browser goal current) row

/-- The goals are written into the input one after the other. -/
def overrideAll (browser : Browser) (goals : List Goal) (text : Text) : Text :=
  goals.foldl (fun current goal => overrideInput browser goal current) text

section

variable {browser : Browser}

theorem settleTr_of_open {goal : Goal} {row : Row} {text : Text}
    (untagged : goalTag goal = none) (typed : inputText row = some text) :
    (settleTr browser goal row).id = row.id ∧
      inputText (settleTr browser goal row) =
        some (overrideInput browser goal text) := by
  cases cells : row.cells with
  | locked count tag archived =>
      simp [inputText, cells] at typed
  | unlocked value disabled requested =>
      have same : value = text := by
        simpa [inputText, cells] using typed
      simp [settleTr, untagged, cells, updateTr, inputText, same]

theorem settleTr_of_closed {goal : Goal} {row : Row}
    (closed : ¬ (goalTag goal = none ∧ (inputText row).isSome)) :
    settleTr browser goal row = newTr goal := by
  cases tagged : goalTag goal with
  | some tag =>
      simp [settleTr, tagged]
  | none =>
      cases cells : row.cells with
      | locked count tag archived =>
          simp [settleTr, cells]
      | unlocked value disabled requested =>
          simp [tagged, inputText, cells] at closed

/-- The current row keeps its id or gets the one of the goal. -/
theorem settleTr_id_or (goal : Goal) (row : Row) :
    (settleTr browser goal row).id = row.id ∨
      (settleTr browser goal row).id = goal.id := by
  by_cases passes : goalTag goal = none ∧ (inputText row).isSome
  · obtain ⟨text, typed⟩ := Option.isSome_iff_exists.mp passes.2
    exact Or.inl (settleTr_of_open passes.1 typed).1
  · rw [settleTr_of_closed passes]
    exact Or.inr rfl

theorem inputText_settleAll {goals : List Goal} {row : Row} {text : Text}
    (untagged : ∀ goal ∈ goals, goalTag goal = none)
    (typed : inputText row = some text) :
    inputText (settleAll browser goals row) =
      some (overrideAll browser goals text) := by
  induction goals generalizing row text with
  | nil =>
      exact typed
  | cons goal goals inductionHypothesis =>
      have settled :=
        (@settleTr_of_open browser goal row text
          (untagged goal (List.mem_cons_self ..)) typed).2
      have later : ∀ other ∈ goals, goalTag other = none :=
        fun other member => untagged other (List.mem_cons_of_mem _ member)
      exact inductionHypothesis later settled

/-! ## Waiting -/

/-- Waiting depends on the ids and the locks of the rows only. -/
theorem waited_congr
    {first second : Row} (sameId : first.id = second.id)
    (sameLock : (inputText first).isSome = (inputText second).isSome)
    (rows : Table) (goals : List Goal) (place : Nat) :
    waited (first :: rows) goals place = waited (second :: rows) goals place := by
  induction goals generalizing place with
  | nil =>
      rfl
  | cons goal goals inductionHypothesis =>
      cases place with
      | zero => simp only [waited, sameId, sameLock, inductionHypothesis]
      | succ place => simp only [waited, sameId, sameLock, inductionHypothesis]

/-- A row that is appended has no influence on the rows before it. -/
theorem waited_append
    {rows : Table} (row : Row) (goals : List Goal) {place : Nat}
    (inside : place < rows.length) :
    waited (rows ++ [row]) goals place = waited rows goals place := by
  induction goals generalizing rows place with
  | nil =>
      cases rows <;> rfl
  | cons goal goals inductionHypothesis =>
      cases rows with
      | nil =>
          simp at inside
      | cons first rows =>
          have waiting := @inductionHypothesis (first :: rows) place inside
          rw [List.cons_append] at waiting ⊢
          cases place with
          | zero =>
              simp only [waited, waiting]
          | succ place =>
              have next :=
                @inductionHypothesis rows place (by simpa using inside)
              simp only [waited, waiting, next]

/-- A row without a goal does not get there. -/
theorem waited_eq_none
    {rows : Table} {goals : List Goal} {place : Nat} {row : Row}
    (present : rows[place]? = some row)
    (unwanted : ∀ goal ∈ goals, goal.id ≠ row.id) :
    waited rows goals place = none := by
  induction goals generalizing rows place with
  | nil =>
      cases rows <;> rfl
  | cons goal goals inductionHypothesis =>
      have later : ∀ other ∈ goals, other.id ≠ row.id :=
        fun other member => unwanted other (List.mem_cons_of_mem _ member)
      cases rows with
      | nil =>
          rfl
      | cons first rows =>
          have waiting := inductionHypothesis present later
          cases place with
          | zero =>
              have same : first = row := by
                simpa using present
              have different := unwanted goal (List.mem_cons_self ..)
              simp [waited, same ▸ different, waiting]
          | succ place =>
              have next := @inductionHypothesis rows place present later
              simp [waited, waiting, next]

/-- A goal with a tag does not pass a row, it replaces it. -/
theorem waited_untagged
    {rows : Table} {goals passed : List Goal} {place : Nat}
    (arrives : waited rows goals place = some passed) :
    ∀ goal ∈ passed, goalTag goal = none := by
  induction goals generalizing rows place passed with
  | nil =>
      cases rows <;> cases arrives
  | cons goal goals inductionHypothesis =>
      cases rows with
      | nil =>
          cases arrives
      | cons row rows =>
          rw [waited.eq_def] at arrives
          dsimp only at arrives
          split at arrives
          · cases place with
            | zero =>
                cases arrives
                simp
            | succ place =>
                exact inductionHypothesis arrives
          · split at arrives
            next passes =>
              cases place with
              | zero =>
                  obtain ⟨rest, arrivesLater, rfl⟩ :=
                    Option.map_eq_some_iff.mp arrives
                  intro other member
                  rcases List.mem_cons.mp member with first | later
                  · rw [first]
                    exact passes.1
                  · exact inductionHypothesis arrivesLater other later
              | succ place =>
                  exact inductionHypothesis arrives
            next =>
              cases arrives

/-! ## The walk -/

/-- Of a list without repeated ids, no later item has the first id. -/
theorem differs_of_absent {α : Type} {key : α → Int} {head : α}
    {items : List α} (absent : key head ∉ items.map key) :
    ∀ other ∈ items, key other ≠ key head := by
  intro other member same
  exact absent (List.mem_map.mpr ⟨other, member, same⟩)

/-- A row in front whose goal does not come any more is never removed, so
every goal gets a new row. -/
theorem walk_stuck
    {row : Row} (rows : Table) {goals : List Goal}
    (different : (goals.map Goal.id).Nodup)
    (unwanted : ∀ goal ∈ goals, goal.id ≠ row.id) :
    walk browser (row :: rows) goals = goals.map newTr := by
  induction goals generalizing row with
  | nil =>
      rfl
  | cons goal goals inductionHypothesis =>
      rw [List.map_cons, List.nodup_cons] at different
      have unwantedLater :
          ∀ other ∈ goals, other.id ≠ (settleTr browser goal row).id := by
        intro other member
        rcases @settleTr_id_or browser goal row with kept | replaced
        · rw [kept]
          exact unwanted other (List.mem_cons_of_mem _ member)
        · rw [replaced]
          exact differs_of_absent different.1 other member
      rw [walk, if_neg (unwanted goal (List.mem_cons_self ..)), List.map_cons,
        inductionHypothesis different.2 unwantedLater]

/-- A goal that no row has gets a new row. -/
theorem walk_of_absent
    {rows : Table} {goals : List Goal} {place : Nat} {goal : Goal}
    (different : (goals.map Goal.id).Nodup)
    (wanted : goals[place]? = some goal)
    (absent : ∀ row ∈ rows, row.id ≠ goal.id) :
    (walk browser rows goals)[place]? = some (newTr goal) := by
  induction goals generalizing rows place with
  | nil =>
      simp at wanted
  | cons first goals inductionHypothesis =>
      rw [List.map_cons, List.nodup_cons] at different
      cases rows with
      | nil =>
          rw [walk_nil, List.getElem?_map, wanted, Option.map_some]
      | cons row rows =>
          have noRow := absent row (List.mem_cons_self ..)
          have absentLater : ∀ other ∈ rows, other.id ≠ goal.id :=
            fun other member => absent other (List.mem_cons_of_mem _ member)
          rw [walk]
          cases place with
          | zero =>
              have same : first = goal := by
                simpa using wanted
              rw [same, if_neg (Ne.symm noRow), List.getElem?_cons_zero]
          | succ place =>
              rw [List.getElem?_cons_succ] at wanted
              split
              next sameId =>
                rw [List.getElem?_cons_succ]
                exact inductionHypothesis different.2 wanted absentLater
              next differentId =>
                rw [List.getElem?_cons_succ]
                apply inductionHypothesis different.2 wanted
                intro other member
                rcases List.mem_cons.mp member with settled | later
                · rw [settled]
                  rcases @settleTr_id_or browser first row with
                    kept | replaced
                  · rw [kept]
                    exact noRow
                  · rw [replaced]
                    exact
                      Ne.symm
                        (differs_of_absent different.1 goal
                          (List.mem_of_getElem? wanted))
                · exact absentLater other later

/-- The row that a goal gets, if a row has its id. -/
def arrived
    (browser : Browser) (goal : Goal) (row : Row) :
    Option (List Goal) → Row
  | some passed => settleTr browser goal (settleAll browser passed row)
  | none => newTr goal

/-- The row stands at the place, and no row before it has its id. -/
structure FirstAt (rows : Table) (place : Nat) (row : Row) : Prop where
  present : rows[place]? = some row
  first :
    ∀ earlier other, earlier < place → rows[earlier]? = some other →
      other.id ≠ row.id

theorem FirstAt.tail {front row : Row} {rows : Table} {place : Nat}
    (firstAt : FirstAt (front :: rows) (place + 1) row) :
    FirstAt rows place row := by
  refine ⟨firstAt.present, ?_⟩
  intro earlier other before found
  exact firstAt.first (earlier + 1) other (by omega) found

/-- The front row may be replaced by one with the same id. -/
theorem FirstAt.replace {front settled row : Row} {rows : Table} {place : Nat}
    (firstAt : FirstAt (front :: rows) (place + 1) row)
    (sameId : settled.id = front.id) :
    FirstAt (settled :: rows) (place + 1) row := by
  refine ⟨firstAt.present, ?_⟩
  intro earlier other before found
  cases earlier with
  | zero =>
      have isSettled : settled = other := by
        simpa using found
      rw [← isSettled, sameId]
      exact firstAt.first 0 front before rfl
  | succ earlier =>
      exact firstAt.first (earlier + 1) other before found

theorem firstAt_front (front : Row) (rows : Table) :
    FirstAt (front :: rows) 0 front := by
  refine ⟨rfl, ?_⟩
  intro earlier other before
  cases before

theorem FirstAt.append {rows : Table} {place : Nat} {row : Row}
    (firstAt : FirstAt rows place row) (added : Row) :
    FirstAt (rows ++ [added]) place row := by
  obtain ⟨inside, _⟩ := List.getElem?_eq_some_iff.mp firstAt.present
  refine ⟨(List.getElem?_append_left inside).trans firstAt.present, ?_⟩
  intro earlier other before found
  rw [List.getElem?_append_left (by omega)] at found
  exact firstAt.first earlier other before found

/-- A goal that takes the place of a waiting row blocks all rows. -/
theorem waited_of_closed {front : Row} {rows : Table} {head : Goal}
    {goals : List Goal} (differs : head.id ≠ front.id)
    (closed : ¬ (goalTag head = none ∧ (inputText front).isSome))
    (place : Nat) : waited (front :: rows) (head :: goals) place = none := by
  cases place with
  | zero => simp only [waited, differs, closed, if_false]
  | succ place => simp only [waited, differs, closed, if_false]

/-- A row whose goal comes before it is reached does not get there. -/
theorem waited_of_taken {front row : Row} {rows : Table} {head : Goal}
    {goals : List Goal} {place : Nat} (differs : head.id ≠ front.id)
    (present : (front :: rows)[place]? = some row)
    (unwanted : ∀ goal ∈ goals, goal.id ≠ row.id) :
    waited (front :: rows) (head :: goals) place = none := by
  have later := waited_eq_none present unwanted
  cases place with
  | zero => simp [waited, differs, later]
  | succ place => simp [waited, differs, later]

theorem walk_getElem?
    {rows : Table} {goals : List Goal} {place wantedPlace : Nat} {row : Row}
    {goal : Goal} (different : (goals.map Goal.id).Nodup)
    (firstAt : FirstAt rows place row)
    (wanted : goals[wantedPlace]? = some goal) (same : goal.id = row.id) :
    (walk browser rows goals)[wantedPlace]? =
      some (arrived browser goal row (waited rows goals place)) := by
  induction goals generalizing rows place wantedPlace row with
  | nil =>
      simp at wanted
  | cons head goals inductionHypothesis =>
      rw [List.map_cons, List.nodup_cons] at different
      have headOnce := differs_of_absent different.1
      cases rows with
      | nil =>
          simpa using firstAt.present
      | cons front rows =>
          rw [walk]
          split
          next frontId =>
            cases place with
            | zero =>
                have isFront : front = row := by
                  simpa using firstAt.present
                cases wantedPlace with
                | zero =>
                    have isHead : head = goal := by
                      simpa using wanted
                    rw [List.getElem?_cons_zero, waited, if_pos frontId,
                      ← isFront, isHead]
                    rfl
                | succ wantedPlace =>
                    rw [List.getElem?_cons_succ] at wanted
                    refine
                      absurd ?_ (headOnce goal (List.mem_of_getElem? wanted))
                    rw [same, frontId, isFront]
            | succ place =>
                have notFront := firstAt.first 0 front (Nat.succ_pos _) rfl
                cases wantedPlace with
                | zero =>
                    have isHead : head = goal := by
                      simpa using wanted
                    refine absurd ?_ notFront
                    rw [← frontId, isHead, same]
                | succ wantedPlace =>
                    rw [List.getElem?_cons_succ] at wanted
                    rw [List.getElem?_cons_succ, waited, if_pos frontId]
                    exact
                      inductionHypothesis different.2 firstAt.tail wanted same
          next frontId =>
            cases wantedPlace with
            | zero =>
                have isHead : head = goal := by
                  simpa using wanted
                have missed :=
                  @waited_of_taken front row rows head goals place frontId
                    firstAt.present
                    (fun other member =>
                      same ▸ isHead ▸ headOnce other member)
                rw [List.getElem?_cons_zero, missed, isHead]
                rfl
            | succ wantedPlace =>
                rw [List.getElem?_cons_succ] at wanted ⊢
                by_cases passes :
                    goalTag head = none ∧ (inputText front).isSome
                · obtain ⟨text, typed⟩ := Option.isSome_iff_exists.mp passes.2
                  obtain ⟨keptId, keptText⟩ :=
                    @settleTr_of_open browser head front text passes.1 typed
                  have alike :=
                    waited_congr keptId (by rw [keptText, typed]; rfl) rows
                      goals place
                  cases place with
                  | zero =>
                      have isFront : front = row := by
                        simpa using firstAt.present
                      have later :=
                        inductionHypothesis different.2
                          (firstAt_front (settleTr browser head front) rows)
                          wanted (by rw [keptId, isFront, same])
                      rw [later, alike, waited, if_neg frontId, if_pos passes,
                        ← isFront]
                      cases waited (front :: rows) goals 0 with
                      | none => rfl
                      | some passed => rfl
                  | succ place =>
                      have later :=
                        inductionHypothesis different.2
                          (firstAt.replace keptId) wanted same
                      rw [later, alike, waited, if_neg frontId, if_pos passes]
                · have stuck :=
                    @walk_stuck browser (newTr head) rows goals different.2
                      headOnce
                  rw [settleTr_of_closed passes, stuck,
                    waited_of_closed frontId passes, List.getElem?_map, wanted]
                  rfl

/-! ## The table after the handler -/

/-- The first goal is not written into an unlocked row of another group. -/
def FirstFits : Table → List Goal → Prop
  | row :: _, goal :: _ =>
      goal.id = row.id ∨ ¬ (goalTag goal = none ∧ (inputText row).isSome)
  | _, _ => True

theorem settleTr_first {row : Row} {rows : Table} {goal : Goal}
    {goals : List Goal} (fits : FirstFits (row :: rows) (goal :: goals)) :
    (settleTr browser goal row).id = goal.id := by
  rcases fits with same | closed
  · exact settleTr_id same
  · rw [settleTr_of_closed closed]
    rfl

/-- The ids are those of the response, unless the first row keeps its own. -/
theorem syncResult_ids_iff (table : Table) (data : List Goal) :
    (syncResult browser data table).map Row.id = data.map Goal.id ↔
      FirstFits table data := by
  cases data with
  | nil =>
      rw [syncResult_of_empty_response]
      cases table <;> simp [FirstFits]
  | cons goal goals =>
      rw [syncResult_cons]
      cases table with
      | nil =>
          dsimp only
          rw [List.map_cons, walk_ids]
          simp [FirstFits, newTr]
      | cons row rows =>
          dsimp only
          rw [List.map_cons, walk_ids, List.map_cons, List.cons.injEq,
            and_iff_left rfl]
          constructor
          · intro sameId
            by_contra misfit
            rw [FirstFits, not_or, not_not] at misfit
            obtain ⟨text, typed⟩ :=
              Option.isSome_iff_exists.mp misfit.2.2
            rw [(settleTr_of_open misfit.2.1 typed).1] at sameId
            exact misfit.1 sameId.symm
          · exact settleTr_first

theorem firstAt_of_nodup
    {rows : Table} (rowsDiffer : (rows.map Row.id).Nodup) {place : Nat}
    {row : Row} (present : rows[place]? = some row) :
    FirstAt rows place row := by
  refine ⟨present, ?_⟩
  intro earlier other before found
  obtain ⟨inside, _⟩ := List.getElem?_eq_some_iff.mp present
  have apart :=
    List.nodup_iff_getElem?_ne_getElem?.mp rowsDiffer earlier place before
      (by simpa using inside)
  rw [List.getElem?_map, List.getElem?_map, found, present] at apart
  simpa using apart

/-- The first goal gets its row if it stands first, and a new one if not. -/
theorem settleTr_front
    {front row : Row} {rows : Table} {head : Goal} {goals : List Goal}
    {place : Nat} (headOnce : ∀ other ∈ goals, other.id ≠ head.id)
    (frontOnce : ∀ other ∈ rows, other.id ≠ front.id)
    (fits : FirstFits (front :: rows) (head :: goals))
    (present : (front :: rows)[place]? = some row)
    (same : head.id = row.id) :
    settleTr browser head front =
      arrived browser head row
        (passedBy (front :: rows) (head :: goals) place) := by
  cases place with
  | zero =>
      have isFront : front = row := by
        simpa using present
      rw [passedBy, isFront, if_pos same]
      rfl
  | succ place =>
      rw [List.getElem?_cons_succ] at present
      have notFront : head.id ≠ front.id := by
        rw [same]
        exact frontOnce row (List.mem_of_getElem? present)
      have missed :=
        @waited_eq_none rows goals place row present
          (fun other member => same ▸ headOnce other member)
      have closed := fits.resolve_left notFront
      rw [passedBy, missed, settleTr_of_closed closed]
      rfl

/-- The row that a goal gets from the whole table. -/
theorem syncResult_getElem?
    {table : Table} {data : List Goal} {place wantedPlace : Nat} {row : Row}
    {goal : Goal} (rowsDiffer : (table.map Row.id).Nodup)
    (goalsDiffer : (data.map Goal.id).Nodup) (fits : FirstFits table data)
    (present : table[place]? = some row)
    (wanted : data[wantedPlace]? = some goal) (same : goal.id = row.id) :
    (syncResult browser data table)[wantedPlace]? =
      some (arrived browser goal row (passedBy table data place)) := by
  cases data with
  | nil =>
      simp at wanted
  | cons head goals =>
      cases table with
      | nil =>
          simp at present
      | cons front rows =>
          rw [List.map_cons, List.nodup_cons] at goalsDiffer rowsDiffer
          have headOnce := differs_of_absent goalsDiffer.1
          have frontOnce := differs_of_absent rowsDiffer.1
          rw [syncResult_cons]
          dsimp only
          cases wantedPlace with
          | zero =>
              have isHead : head = goal := by
                simpa using wanted
              rw [List.getElem?_cons_zero, ← isHead]
              rw [← isHead] at same
              exact
                congrArg some
                  (settleTr_front headOnce frontOnce fits present same)
          | succ wantedPlace =>
              rw [List.getElem?_cons_succ] at wanted ⊢
              have notHead := headOnce goal (List.mem_of_getElem? wanted)
              cases place with
              | zero =>
                  have isFront : front = row := by
                    simpa using present
                  have notFront : head.id ≠ front.id := by
                    rw [isFront, ← same]
                    exact Ne.symm notHead
                  rw [if_neg notFront, passedBy, if_neg notFront]
                  apply walk_of_absent goalsDiffer.2 wanted
                  intro other member
                  rcases List.mem_append.mp member with old | added
                  · rw [same, ← isFront]
                    exact frontOnce other old
                  · rw [List.mem_singleton.mp added]
                    exact Ne.symm notHead
              | succ place =>
                  rw [List.getElem?_cons_succ] at present
                  obtain ⟨inside, _⟩ := List.getElem?_eq_some_iff.mp present
                  have firstAt := firstAt_of_nodup rowsDiffer.2 present
                  rw [passedBy]
                  split
                  · exact walk_getElem? goalsDiffer.2 firstAt wanted same
                  · rw [← waited_append (newTr head) goals inside]
                    exact
                      walk_getElem? goalsDiffer.2 (firstAt.append _) wanted
                        same

/-! ## Inputs -/

/-- The text that a goal shows if an unlocked row with the given text has its
id. -/
def arrivedText
    (browser : Browser) (goal : Goal) (text : Text) :
    Option (List Goal) → Text
  | some passed => overrideAll browser (passed ++ [goal]) text
  | none => numeral goal.count

theorem passedBy_untagged
    {table : Table} {data passed : List Goal} {place : Nat}
    (arrives : passedBy table data place = some passed) :
    ∀ goal ∈ passed, goalTag goal = none := by
  cases table with
  | nil =>
      cases arrives
  | cons row rows =>
      cases data with
      | nil =>
          cases place <;> cases arrives
      | cons goal goals =>
          cases place with
          | zero =>
              rw [passedBy] at arrives
              split at arrives
              · cases arrives
                simp
              · cases arrives
          | succ place =>
              exact waited_untagged arrives

theorem inputText_arrived
    {table : Table} {data : List Goal} {place : Nat} {goal : Goal} {row : Row}
    {text : Text} (untagged : goalTag goal = none)
    (typed : inputText row = some text) :
    inputText (arrived browser goal row (passedBy table data place)) =
      some (arrivedText browser goal text (passedBy table data place)) := by
  cases arrives : passedBy table data place with
  | none =>
      simp [arrived, arrivedText, newTr, newCells, untagged, inputText]
  | some passed =>
      have waiting :=
        @inputText_settleAll browser passed row text
          (passedBy_untagged arrives) typed
      rw [arrived, (settleTr_of_open untagged waiting).2]
      simp only [arrivedText, overrideAll, List.foldl_append, List.foldl_cons,
        List.foldl_nil]

end

/-- The rows are those of the response in its order, and the row of a goal
without a tag keeps what was typed, unless it exceeds the inventory. -/
structure Reconciled
    (browser : Browser) (table : Table) (data : List Goal) (after : Table) :
    Prop where
  ids : after.map Row.id = data.map Goal.id
  kept :
    ∀ row ∈ table, ∀ goal ∈ data, ∀ text, goal.id = row.id →
      goalTag goal = none → inputText row = some text →
        overrides browser goal text = false →
          ∃ found ∈ after, found.id = row.id ∧ inputText found = some text

/-- A row that gets to its goal is not overridden by the goals that pass it,
and a row that does not get there shows the count already. -/
def InputSurvives
    (browser : Browser) (table : Table) (data : List Goal) : Prop :=
  ∀ place row goal text, table[place]? = some row → goal ∈ data →
    goal.id = row.id → goalTag goal = none → inputText row = some text →
      overrides browser goal text = false →
        match passedBy table data place with
        | some passed => overrideAll browser (passed ++ [goal]) text = text
        | none => numeral goal.count = text

theorem arrivedText_eq_iff
    (browser : Browser) (goal : Goal) (text : Text)
    (passes : Option (List Goal)) :
    arrivedText browser goal text passes = text ↔
      match passes with
      | some passed => overrideAll browser (passed ++ [goal]) text = text
      | none => numeral goal.count = text := by
  cases passes with
  | none => rfl
  | some passed => rfl

/-- A row that has arrived has the id that was sent for its place. -/
theorem id_at_place
    {after : Table} {data : List Goal} {place : Nat} {row : Row} {goal : Goal}
    (ids : after.map Row.id = data.map Goal.id)
    (arrives : after[place]? = some row) (wanted : data[place]? = some goal) :
    row.id = goal.id := by
  have atPlace := congrArg (fun ids => ids[place]?) ids
  simpa [arrives, wanted] using atPlace

/-- The handler reconciles the table with the response exactly if the first
row fits and every input survives. -/
theorem reconciled_iff
    (browser : Browser) (table : Table) (data : List Goal)
    (rowsDiffer : (table.map Row.id).Nodup)
    (goalsDiffer : (data.map Goal.id).Nodup) :
    Reconciled browser table data (syncResult browser data table) ↔
      FirstFits table data ∧ InputSurvives browser table data := by
  constructor
  · intro reconciled
    have fits := (syncResult_ids_iff table data).mp reconciled.ids
    refine ⟨fits, ?_⟩
    intro place row goal text present member same untagged typed reachable
    obtain ⟨wantedPlace, wanted⟩ := List.getElem?_of_mem member
    have arrives :=
      @syncResult_getElem? browser table data place wantedPlace row goal
        rowsDiffer goalsDiffer fits present wanted same
    obtain ⟨found, foundMember, foundId, foundText⟩ :=
      reconciled.kept row (List.mem_of_getElem? present) goal member text same
        untagged typed reachable
    have arrivedId := id_at_place reconciled.ids arrives wanted
    have afterDiffer :
        ((syncResult browser data table).map Row.id).Nodup := by
      rw [reconciled.ids]
      exact goalsDiffer
    have isFound :
        found = arrived browser goal row (passedBy table data place) := by
      apply List.inj_on_of_nodup_map afterDiffer foundMember
        (List.mem_of_getElem? arrives)
      rw [foundId, arrivedId, same]
    rw [isFound, inputText_arrived untagged typed] at foundText
    exact (arrivedText_eq_iff _ _ _ _).mp (Option.some.inj foundText)
  · rintro ⟨fits, survives⟩
    have ids := (@syncResult_ids_iff browser table data).mpr fits
    refine ⟨ids, ?_⟩
    intro row rowMember goal member text same untagged typed reachable
    obtain ⟨place, present⟩ := List.getElem?_of_mem rowMember
    obtain ⟨wantedPlace, wanted⟩ := List.getElem?_of_mem member
    have arrives :=
      @syncResult_getElem? browser table data place wantedPlace row goal
        rowsDiffer goalsDiffer fits present wanted same
    refine ⟨_, List.mem_of_getElem? arrives, ?_, ?_⟩
    · exact (id_at_place ids arrives wanted).trans same
    · have survived :=
        survives place row goal text present member same untagged typed
          reachable
      rw [inputText_arrived untagged typed,
        (arrivedText_eq_iff _ _ _ _).mpr survived]

/-- A row is inserted between two rows with typed amounts. -/
theorem reconciled_inserted :
    Reconciled Browser.exact
      [editRow "3".toList (newTr (boltGoal 0 0 10 none)),
        editRow "7".toList (newTr (boltGoal 2 0 10 none))]
      [boltGoal 0 0 10 none, boltGoal 1 0 10 none, boltGoal 2 0 10 none]
      (syncResult Browser.exact
        [boltGoal 0 0 10 none, boltGoal 1 0 10 none, boltGoal 2 0 10 none]
        [editRow "3".toList (newTr (boltGoal 0 0 10 none)),
          editRow "7".toList (newTr (boltGoal 2 0 10 none))]) := by
  refine
    (reconciled_iff Browser.exact _ _ (by decide) (by decide)).mpr
      ⟨Or.inl rfl, ?_⟩
  intro place row goal text present member same untagged typed reachable
  simp only [List.mem_cons, List.not_mem_nil, or_false] at member
  rcases place with _ | _ | place
  · cases present
    cases typed
    rcases member with rfl | rfl | rfl
    · change
        overrideAll Browser.exact [boltGoal 0 0 10 none] "3".toList =
          "3".toList
      decide
    · cases same
    · cases same
  · cases present
    cases typed
    rcases member with rfl | rfl | rfl
    · cases same
    · cases same
    · change
        overrideAll Browser.exact [boltGoal 1 0 10 none, boltGoal 2 0 10 none]
            "7".toList =
          "7".toList
      decide
  · simp at present

/-- The first row is removed from the response.  It keeps its id and takes
the texts of the second row, whose input is lost. -/
theorem removed_first_not_reconciled :
    (([newTr (boltGoal 0 0 10 none),
        editRow "7".toList (newTr (boltGoal 1 0 10 none))] :
        Table).map Row.id).Nodup ∧
      ([boltGoal 1 0 10 none].map Goal.id).Nodup ∧
        ¬ Reconciled Browser.exact
            [newTr (boltGoal 0 0 10 none),
              editRow "7".toList (newTr (boltGoal 1 0 10 none))]
            [boltGoal 1 0 10 none]
            (syncResult Browser.exact [boltGoal 1 0 10 none]
              [newTr (boltGoal 0 0 10 none),
                editRow "7".toList (newTr (boltGoal 1 0 10 none))]) := by
  refine ⟨by decide, by decide, ?_⟩
  intro reconciled
  exact absurd reconciled.ids (by decide)

end LtlsKitting.Client
