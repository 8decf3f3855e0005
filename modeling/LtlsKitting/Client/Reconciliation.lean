import LtlsKitting.Client.Table

/-!
# What the handler makes of a table

The loop of the handler walks over the response and the table at once.  From
the second round on, the rows before the index are finished and the row at the
index is the first one that is left: it is consumed if it has the wanted id,
and otherwise it stays in front while a new row is inserted before it.  The
function `walk` describes this without an index.

In the first round a row with another id is consumed nevertheless, and the new
row is inserted at the end of the table.
-/

namespace LtlsKitting.Client

open LtlsKitting.Php LtlsKitting.Store

/-- The finished rows for the given goals, from the rows that are left. -/
def walk (browser : Browser) : Table → List Goal → Table
  | _, [] => []
  | [], goal :: goals => newTr goal :: walk browser [] goals
  | row :: rows, goal :: goals =>
      if goal.id = row.id then
        settleTr browser goal row :: walk browser rows goals
      else
        newTr goal :: walk browser (settleTr browser goal row :: rows) goals

section

variable {browser : Browser}

/-- The search for a row that has moved never finds one. -/
theorem findMoved_of_ne
    (i : Nat) (trs : Table) {quo : Row} {goal : Goal}
    (different : goal.id ≠ quo.id) : findMoved i trs quo goal = none := by
  simp only [findMoved, trId, List.find?_eq_none]
  intro j _
  simp [Ne.symm different]

theorem placeRow_of_eq
    (done rows : Table) {quo : Row} {goal : Goal}
    (same : goal.id = quo.id) :
    placeRow browser done.length (done ++ quo :: rows) quo goal =
      done ++ settleTr browser goal quo :: rows := by
  simp [placeRow, same]

theorem insertIdx_length
    (done rows : Table) (row : Row) :
    (done ++ rows).insertIdx done.length row = done ++ row :: rows := by
  induction done with
  | nil =>
      rfl
  | cons first rest inductionHypothesis =>
      simp only [List.cons_append, List.length_cons,
        List.insertIdx_succ_cons, inductionHypothesis]

/-- Behind the first row, a new row is inserted before the current one. -/
theorem placeRow_of_ne
    {done : Table} (rows : Table) {quo : Row} {goal : Goal}
    (started : done ≠ []) (different : goal.id ≠ quo.id) :
    placeRow browser done.length (done ++ quo :: rows) quo goal =
      done ++ newTr goal :: settleTr browser goal quo :: rows := by
  have positive : done.length ≠ 0 := by
    simpa using started
  simp only [placeRow, different, if_false, findMoved_of_ne _ _ different,
    insertBehind, positive]
  rw [List.set_append_right _ _ (Nat.le_refl _), Nat.sub_self,
    List.set_cons_zero, insertIdx_length]

/-- At the first row, a new row is inserted at the end. -/
theorem placeRow_first_of_ne
    (rows : Table) {quo : Row} {goal : Goal}
    (different : goal.id ≠ quo.id) :
    placeRow browser 0 (quo :: rows) quo goal =
      settleTr browser goal quo :: (rows ++ [newTr goal]) := by
  simp [placeRow, different, findMoved_of_ne _ _ different, insertBehind]

/-! ## The loop -/

theorem round_end
    {past : List Goal} {done : Table} (same : past.length = done.length) :
    round browser past (done.length, done) = none := by
  simp [round, same]

theorem round_remove
    {past : List Goal} {done : Table} (same : past.length = done.length)
    (row : Row) (rows : Table) :
    round browser past (done.length, done ++ row :: rows) =
      some (done.length, done ++ rows) := by
  simp [round, ← same, List.eraseIdx_append_of_length_le]

theorem round_append
    {past : List Goal} {done : Table} (same : past.length = done.length)
    (goal : Goal) (goals : List Goal) :
    round browser (past ++ goal :: goals) (done.length, done) =
      some (done.length + 1, done ++ [newTr goal]) := by
  simp [round, ← same]

theorem round_place
    {past : List Goal} {done : Table} (same : past.length = done.length)
    (goal : Goal) (goals : List Goal) (row : Row) (rows : Table) :
    round browser (past ++ goal :: goals) (done.length, done ++ row :: rows) =
      some
        (done.length + 1,
          placeRow browser done.length (done ++ row :: rows) row goal) := by
  simp [round, ← same]

theorem rounds_of_end
    {data : List Goal} {current : Nat × Table}
    (ends : round browser data current = none) (limit : Nat) :
    rounds browser data limit current = current := by
  cases limit with
  | zero => rfl
  | succ limit => simp only [rounds, ends]

/-- From the second round on, the loop finishes the rows as `walk` does. -/
theorem rounds_walk
    (limit : Nat) {past goals : List Goal} {done rows : Table}
    (started : done ≠ []) (same : past.length = done.length)
    (enough :
      roundsLeft (past ++ goals) (done.length, done ++ rows) ≤ limit) :
    (rounds browser (past ++ goals) limit (done.length, done ++ rows)).2 =
      done ++ walk browser rows goals := by
  induction limit generalizing past goals done rows with
  | zero =>
      have nonempty : 0 < done.length := List.length_pos_iff.mpr started
      simp only [roundsLeft, List.length_append] at enough
      omega
  | succ limit inductionHypothesis =>
      have next :
          ∀ {following : Nat × Table},
            round browser (past ++ goals) (done.length, done ++ rows) =
                some following →
              roundsLeft (past ++ goals) following ≤ limit := by
        intro following continues
        have fewer := roundsLeft_round continues
        omega
      cases goals with
      | nil =>
          rw [List.append_nil] at next ⊢
          cases rows with
          | nil =>
              rw [List.append_nil, rounds_of_end (round_end same)]
              simp [walk]
          | cons row rows =>
              have continues := @round_remove browser past done same row rows
              have rest := next continues
              rw [rounds, continues]
              rw [← List.append_nil past] at rest ⊢
              exact inductionHypothesis started same rest
      | cons goal goals =>
          have finish :
              ∀ (finished : Row) (left : Table),
                round browser (past ++ goal :: goals)
                    (done.length, done ++ rows) =
                  some (done.length + 1, done ++ finished :: left) →
                (rounds browser (past ++ goal :: goals) (limit + 1)
                    (done.length, done ++ rows)).2 =
                  done ++ finished :: walk browser left goals := by
            intro finished left continues
            have rest := next continues
            have later :=
              @inductionHypothesis (past ++ [goal]) goals
                (done ++ [finished]) left (by simp) (by simp [same])
                (by simpa using rest)
            rw [rounds, continues]
            simpa using later
          cases rows with
          | nil =>
              apply finish
              rw [List.append_nil]
              exact round_append same goal goals
          | cons row rows =>
              rw [walk]
              split
              next sameId =>
                apply finish
                rw [round_place same, placeRow_of_eq done rows sameId]
              next different =>
                apply finish
                rw [round_place same, placeRow_of_ne rows started different]

theorem rounds_nil (limit : Nat) (table : Table)
    (enough : table.length ≤ limit) :
    (rounds browser [] limit (0, table)).2 = [] := by
  induction table generalizing limit with
  | nil =>
      have ends : round browser [] (0, []) = none := rfl
      rw [rounds_of_end ends]
  | cons row rows inductionHypothesis =>
      cases limit with
      | zero =>
          simp at enough
      | succ limit =>
          have continues :
              round browser [] (0, row :: rows) = some (0, rows) := rfl
          rw [rounds, continues]
          exact inductionHypothesis limit (by simpa using enough)

/-! ## The table after the handler -/

theorem syncResult_of_empty_response (table : Table) :
    syncResult browser [] table = [] := by
  apply rounds_nil
  simp [roundLimit]

/-- The table after a response with at least one row. -/
theorem syncResult_cons (goal : Goal) (goals : List Goal) (table : Table) :
    syncResult browser (goal :: goals) table =
      match table with
      | [] => newTr goal :: walk browser [] goals
      | row :: rows =>
          settleTr browser goal row ::
            walk browser
              (if goal.id = row.id then rows else rows ++ [newTr goal])
              goals := by
  have first :
      ∀ (finished : Row) (left : Table),
        round browser (goal :: goals) (0, table) =
            some (1, finished :: left) →
          syncResult browser (goal :: goals) table =
            finished :: walk browser left goals := by
    intro finished left continues
    have fewer := roundsLeft_round continues
    have limit :
        roundLimit (goal :: goals) table =
          2 * goals.length + table.length + 1 + 1 := by
      simp only [roundLimit, List.length_cons]
      omega
    have later :=
      @rounds_walk browser (2 * goals.length + table.length + 1) [goal] goals
        [finished] left (by simp) rfl (by
          simp [roundsLeft] at fewer ⊢
          omega)
    simp only [syncResult]
    rw [limit, rounds, continues]
    exact later
  cases table with
  | nil =>
      apply first
      exact @round_append browser [] [] rfl goal goals
  | cons row rows =>
      have continues := @round_place browser [] [] rfl goal goals row rows
      apply first
      refine continues.trans ?_
      by_cases same : goal.id = row.id
      · rw [if_pos same]
        exact
          congrArg (fun placed => some (1, placed))
            (placeRow_of_eq [] rows same)
      · rw [if_neg same]
        exact
          congrArg (fun placed => some (1, placed))
            (placeRow_first_of_ne rows same)

/-! ## Ids and texts -/

/-- The texts of the row that are not typed are those of the goal. -/
structure Shows (goal : Goal) (row : Row) : Prop where
  description : row.description = goal.description
  pn : row.pn = writeHTML goal.pn
  sn : row.sn = writeHTML goal.sn
  weight : row.weight = writeHTML goal.weight
  inventory : row.inventory = goal.inventory
  target : row.target = goal.target
  location : row.location = writeHTML goal.location

theorem shows_newTr (goal : Goal) : Shows goal (newTr goal) :=
  ⟨rfl, rfl, rfl, rfl, rfl, rfl, rfl⟩

theorem shows_settleTr (goal : Goal) (row : Row) :
    Shows goal (settleTr browser goal row) := by
  simp only [settleTr]
  split
  · exact ⟨rfl, rfl, rfl, rfl, rfl, rfl, rfl⟩
  · exact shows_newTr goal

theorem settleTr_id {goal : Goal} {row : Row} (same : goal.id = row.id) :
    (settleTr browser goal row).id = goal.id := by
  simp only [settleTr]
  split
  · exact same.symm
  · rfl

theorem walk_nil (goals : List Goal) :
    walk browser [] goals = goals.map newTr := by
  induction goals with
  | nil => rfl
  | cons goal goals inductionHypothesis =>
      rw [walk, inductionHypothesis, List.map_cons]

/-- Behind the first row, the ids are those of the response. -/
theorem walk_ids (rows : Table) (goals : List Goal) :
    (walk browser rows goals).map Row.id = goals.map Goal.id := by
  induction goals generalizing rows with
  | nil =>
      simp [walk]
  | cons goal goals inductionHypothesis =>
      cases rows with
      | nil =>
          rw [walk, List.map_cons, List.map_cons, inductionHypothesis]
          rfl
      | cons row rows =>
          rw [walk]
          split
          next same =>
            rw [List.map_cons, List.map_cons, inductionHypothesis,
              settleTr_id same]
          next different =>
            rw [List.map_cons, List.map_cons, inductionHypothesis]
            rfl

/-- Every row of the walk shows a goal. -/
theorem walk_shows (rows : Table) (goals : List Goal) :
    List.Forall₂ Shows goals (walk browser rows goals) := by
  induction goals generalizing rows with
  | nil =>
      exact List.Forall₂.nil
  | cons goal goals inductionHypothesis =>
      cases rows with
      | nil =>
          exact List.Forall₂.cons (shows_newTr goal) (inductionHypothesis [])
      | cons row rows =>
          rw [walk]
          split
          · exact
              List.Forall₂.cons (shows_settleTr goal row)
                (inductionHypothesis rows)
          · exact
              List.Forall₂.cons (shows_newTr goal)
                (inductionHypothesis _)

/-- Whatever the table was, the handler leaves one row for each goal, which
shows it. -/
theorem syncResult_shows (data : List Goal) (table : Table) :
    List.Forall₂ Shows data (syncResult browser data table) := by
  cases data with
  | nil =>
      rw [syncResult_of_empty_response]
      exact List.Forall₂.nil
  | cons goal goals =>
      rw [syncResult_cons]
      cases table with
      | nil =>
          exact List.Forall₂.cons (shows_newTr goal) (walk_shows _ goals)
      | cons row rows =>
          exact
            List.Forall₂.cons (shows_settleTr goal row) (walk_shows _ goals)

theorem rounds_add
    (data : List Goal) (limit extra : Nat) (current : Nat × Table) :
    rounds browser data (limit + extra) current =
      rounds browser data extra (rounds browser data limit current) := by
  induction limit generalizing current with
  | zero =>
      rw [Nat.zero_add, rounds]
  | succ limit inductionHypothesis =>
      rw [Nat.succ_add, rounds, rounds]
      cases continues : round browser data current with
      | none =>
          exact (rounds_of_end continues extra).symm
      | some next =>
          exact inductionHypothesis next

/-- The loop of the handler ends for every table and every response, no later
than the limit, and it leaves as many rows as the response has. -/
theorem loop_ends_with_response_length
    (browser : Browser) (data : List Goal) (table : Table) (extra : Nat) :
    round browser data
          (rounds browser data (roundLimit data table + extra) (0, table)) =
        none ∧
      (rounds browser data (roundLimit data table + extra) (0, table)).2.length =
        data.length := by
  have ends := syncResult_end browser data table
  have stays :
      rounds browser data (roundLimit data table + extra) (0, table) =
        rounds browser data (roundLimit data table) (0, table) := by
    rw [rounds_add, rounds_of_end ends]
  rw [stays]
  exact ⟨ends, (syncResult_shows data table).length_eq.symm⟩

/-! ## Tables that agree with the response -/

/-- The rows of a table that agrees with the response in its ids. -/
def arrange (browser : Browser) : Table → List Goal → Table
  | _, [] => []
  | [], goal :: goals => newTr goal :: arrange browser [] goals
  | row :: rows, goal :: goals =>
      settleTr browser goal row :: arrange browser rows goals

/-- Wherever both have a row, the table and the response have the same id. -/
def SameIds : Table → List Goal → Prop
  | row :: rows, goal :: goals => goal.id = row.id ∧ SameIds rows goals
  | _, _ => True

theorem sameIds_of_getElem?
    {table : Table} {data : List Goal}
    (agree :
      ∀ (i : Nat) (row : Row) (goal : Goal),
        table[i]? = some row → data[i]? = some goal → goal.id = row.id) :
    SameIds table data := by
  induction table generalizing data with
  | nil =>
      trivial
  | cons row rows inductionHypothesis =>
      cases data with
      | nil =>
          trivial
      | cons goal goals =>
          refine ⟨agree 0 row goal rfl rfl, inductionHypothesis ?_⟩
          intro i other wanted present goalPresent
          exact agree (i + 1) other wanted present goalPresent

theorem walk_of_sameIds {rows : Table} {goals : List Goal}
    (same : SameIds rows goals) :
    walk browser rows goals = arrange browser rows goals := by
  induction goals generalizing rows with
  | nil =>
      cases rows <;> rfl
  | cons goal goals inductionHypothesis =>
      cases rows with
      | nil =>
          have later : SameIds [] goals := trivial
          rw [walk, arrange, inductionHypothesis later]
      | cons row rows =>
          rw [walk, if_pos same.1, arrange, inductionHypothesis same.2]

/-- If the ids agree, every row stays in its place. -/
theorem syncResult_of_sameIds {data : List Goal} {table : Table}
    (same : SameIds table data) :
    syncResult browser data table = arrange browser table data := by
  cases data with
  | nil =>
      rw [syncResult_of_empty_response]
      cases table <;> rfl
  | cons goal goals =>
      rw [syncResult_cons]
      cases table with
      | nil =>
          have later : SameIds [] goals := trivial
          rw [arrange, walk_of_sameIds later]
      | cons row rows =>
          dsimp only
          rw [if_pos same.1, arrange, walk_of_sameIds same.2]

/-- A table with as many rows as the response only settles its rows. -/
theorem arrange_eq_zipWith {table : Table} {data : List Goal}
    (sameLength : table.length = data.length) :
    arrange browser table data =
      List.zipWith (settleTr browser) data table := by
  induction table generalizing data with
  | nil =>
      cases data with
      | nil => rfl
      | cons goal goals => simp at sameLength
  | cons row rows inductionHypothesis =>
      cases data with
      | nil =>
          simp at sameLength
      | cons goal goals =>
          have later : rows.length = goals.length := by
            simpa using sameLength
          rw [arrange, List.zipWith_cons_cons, inductionHypothesis later]

theorem getElem?_arrange (table : Table) (data : List Goal) (i : Nat) :
    (arrange browser table data)[i]? =
      data[i]?.map (fun goal =>
        match table[i]? with
        | some row => settleTr browser goal row
        | none => newTr goal) := by
  induction data generalizing table i with
  | nil =>
      cases table <;> rfl
  | cons goal goals inductionHypothesis =>
      cases table with
      | nil =>
          cases i with
          | zero => rfl
          | succ i =>
              rw [arrange, List.getElem?_cons_succ, inductionHypothesis]
              simp
      | cons row rows =>
          cases i with
          | zero => rfl
          | succ i =>
              rw [arrange, List.getElem?_cons_succ, inductionHypothesis]
              simp

end

end LtlsKitting.Client
