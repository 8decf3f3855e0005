import LtlsKitting.Cabinet.Calls
import LtlsKitting.Client.Page

/-!
# The lights follow the table

A page asks for lights when it is opened, and at every tick at which the
locations of the rows that need more items have changed.  The calls are
executed one after the other, in the order in which they were issued, and at
any time.  Every call turns the strip off first, so the strip shows what the
call that was executed last asks for.
-/

namespace LtlsKitting.Cabinet

open LtlsKitting.Php LtlsKitting.Store LtlsKitting.Web
open LtlsKitting.Interaction LtlsKitting.Client

/-- A page, the calls that it has issued so far, how many of them have been
executed, and the strip. -/
structure Room where
  page : Page
  issued : List HttpRequest
  executed : Nat
  strip : Strip

inductive RoomAction where
  | edit (row : Nat) (text : Text)
  | click (row : Nat)
  | receive (data : List Goal)
  | tick (now : Nat)
  | execute (db : Db) (session : Session)

/-- A page that has just been opened. -/
def Room.opened
    (orderId kitId : Int) (loaded now : Nat) (strip : Strip) : Room where
  page := Page.loaded orderId kitId loaded now
  issued := [initCall]
  executed := 0
  strip := strip

/-- The call of a tick, if the locations have changed. -/
def tickCalls (browser : Browser) (page : Page) : List HttpRequest :=
  if page.globalloc ≠ Client.locList browser page.table then
    [toggleCall (Client.locList browser page.table)]
  else
    []

def Room.step
    (server : Server) (runtime : Runtime) (browser : Browser) (room : Room) :
    RoomAction → Room
  | .edit row text => { room with page := room.page.edit row text }
  | .click row => { room with page := room.page.click row }
  | .receive data => { room with page := room.page.receive browser data }
  | .tick now =>
      { room with
        page := room.page.syncKits browser now
        issued := room.issued ++ tickCalls browser room.page }
  | .execute db session =>
      match room.issued[room.executed]? with
      | some call =>
          { room with
            executed := room.executed + 1
            strip := executeCall server runtime db session room.strip call }
      | none => room

/-- The input of the row is a number below its target. -/
def NeedsMore (browser : Browser) (row : Row) : Prop :=
  ∃ text value,
    inputText row = some text ∧ parseInt text = some value ∧
      browser.below value row.target = true

/-- Whatever is typed, the page compares integers if the target is small. -/
theorem needsMore_iff {browser : Browser} {row : Row}
    (small : SmallInteger row.target) :
    NeedsMore browser row ↔
      ∃ text value,
        inputText row = some text ∧ parseInt text = some value ∧
          value < row.target := by
  simp only [NeedsMore, browser.below_small _ small, decide_eq_true_eq]

/-- Every location of the table is empty or names a cell. -/
def GoodTable (table : Table) : Prop :=
  ∀ row ∈ table, GoodLocation row.location

instance (table : Table) : Decidable (GoodTable table) :=
  inferInstanceAs (Decidable (∀ row ∈ table, GoodLocation row.location))

/-! ## The locations of a table -/

/-- The locations of the rows that need more items. -/
def shortLocations (browser : Browser) (table : Table) : List Bytes :=
  (table.filter (isShort browser)).map Row.location

theorem locList_eq (browser : Browser) (table : Table) :
    Client.locList browser table =
      hyphenated (shortLocations browser table) := by
  rw [Client.locList, hyphenated, shortLocations, List.flatMap_map]

theorem isShort_iff (browser : Browser) (row : Row) :
    isShort browser row = true ↔ NeedsMore browser row := by
  simp only [isShort, NeedsMore]
  rw [parseInt_numeral]
  cases inputText row with
  | none =>
      simp
  | some text =>
      cases parsed : parseInt text with
      | none => simp [parsed]
      | some value => simp [parsed]

theorem shortLocations_good {browser : Browser} {table : Table}
    (good : GoodTable table) :
    ∀ location ∈ shortLocations browser table, GoodLocation location := by
  intro location member
  obtain ⟨row, isRow, rfl⟩ := List.mem_map.mp member
  exact good row (List.mem_of_mem_filter isRow)

/-- The light belongs to the cell of a row that needs more items. -/
def Wanted (browser : Browser) (table : Table) (led : Nat) : Prop :=
  ∃ row ∈ table,
    NeedsMore browser row ∧
      ∃ start,
        parsePosition row.location = some start ∧
          start ≤ led ∧ led < start + 4

/-- Whatever is typed, the lights of small targets are those of the rows
whose input is an integer below the target. -/
theorem wanted_iff {browser : Browser} {table : Table}
    (small : ∀ row ∈ table, SmallInteger row.target) (led : Nat) :
    Wanted browser table led ↔
      ∃ row ∈ table,
        (∃ text value,
            inputText row = some text ∧ parseInt text = some value ∧
              value < row.target) ∧
          ∃ start,
            parsePosition row.location = some start ∧
              start ≤ led ∧ led < start + 4 := by
  constructor
  · rintro ⟨row, member, needs, place⟩
    exact ⟨row, member, (needsMore_iff (small row member)).mp needs, place⟩
  · rintro ⟨row, member, short, place⟩
    exact ⟨row, member, (needsMore_iff (small row member)).mpr short, place⟩

theorem any_shortLocations (browser : Browser) (table : Table) (led : Nat) :
    (shortLocations browser table).any
        (fun position => lights position led) = true ↔
      Wanted browser table led := by
  simp only [shortLocations, List.any_map, List.any_eq_true,
    List.mem_filter, Function.comp_apply, isShort_iff, lights_iff, Wanted,
    and_assoc]

theorem shown_shortLocations
    (browser : Browser) (table : Table) (led : Nat) :
    (Wanted browser table led →
        shown (shortLocations browser table) led = Rgb.lit) ∧
      (¬ Wanted browser table led →
        shown (shortLocations browser table) led = Rgb.off) := by
  rw [← any_shortLocations, shown]
  constructor
  · intro wanted
    rw [if_pos wanted]
  · intro unwanted
    rw [if_neg unwanted]

/-! ## One call -/

/-- Whatever the strip showed before, the call shows the positions. -/
def Displays
    (server : Server) (runtime : Runtime) (call : HttpRequest)
    (positions : List Bytes) : Prop :=
  ∀ (db : Db) (session : Session) (strip : Strip) (led : Nat),
    led < 200 →
      executeCall server runtime db session strip call led =
        shown positions led

section

variable {server : Server} {runtime : Runtime} {browser : Browser}

theorem displays_init : Displays server runtime initCall [] :=
  fun _ _ strip _ onStrip => executeCall_init strip onStrip

theorem displays_toggle {table : Table} (good : GoodTable table) :
    Displays server runtime (toggleCall (Client.locList browser table))
      (shortLocations browser table) := by
  intro db session strip led onStrip
  rw [locList_eq]
  exact executeCall_toggle strip (shortLocations_good good) onStrip

/-! ## Whole runs -/

/-- The last call was sent for the locations the page remembers, and the strip
shows what the last executed call asks for. -/
structure Sound
    (server : Server) (runtime : Runtime) (room : Room) : Prop where
  latest :
    room.issued.getLast? = some (toggleCall room.page.globalloc) ∨
      room.issued.getLast? = some initCall ∧ room.page.globalloc = []
  behind : room.executed ≤ room.issued.length
  strip :
    ∀ count call positions,
      room.executed = count + 1 → room.issued[count]? = some call →
        Displays server runtime call positions →
          ∀ led, led < 200 → room.strip led = shown positions led

theorem sound_opened
    (orderId kitId : Int) (loaded now : Nat) (strip : Strip) :
    Sound server runtime (Room.opened orderId kitId loaded now strip) := by
  refine ⟨Or.inr ⟨rfl, rfl⟩, Nat.zero_le _, ?_⟩
  intro count call positions impossible
  cases impossible

theorem sound_tick {room : Room} (sound : Sound server runtime room)
    (now : Nat) :
    Sound server runtime
      (room.step server runtime browser (.tick now)) := by
  refine ⟨?_, ?_, ?_⟩
  · simp only [Room.step, tickCalls, Page.syncKits]
    by_cases changed :
        room.page.globalloc ≠ Client.locList browser room.page.table
    · left
      rw [if_pos changed, List.getLast?_concat]
    · rw [if_neg changed, List.append_nil, ← not_not.mp changed]
      exact sound.latest
  · have behind := sound.behind
    simp only [Room.step, List.length_append]
    omega
  · intro count call positions executed found displays
    have small : count < room.issued.length := by
      have behind := sound.behind
      have same : room.executed = count + 1 := executed
      omega
    simp only [Room.step] at found
    rw [List.getElem?_append_left small] at found
    exact sound.strip count call positions executed found displays

theorem sound_execute {room : Room} (sound : Sound server runtime room)
    (db : Db) (session : Session) :
    Sound server runtime
      (room.step server runtime browser (.execute db session)) := by
  simp only [Room.step]
  cases found : room.issued[room.executed]? with
  | none =>
      exact sound
  | some next =>
      have inside : room.executed < room.issued.length :=
        (List.getElem?_eq_some_iff.mp found).1
      refine ⟨sound.latest, inside, ?_⟩
      intro count call positions executed foundCall displays led onStrip
      have same : room.executed = count := by
        have successor : room.executed + 1 = count + 1 := executed
        omega
      have sameCall : next = call := by
        rw [← same, found] at foundCall
        exact Option.some.inj foundCall
      rw [sameCall]
      exact displays db session room.strip led onStrip

/-- Every step keeps the strip in line with the calls. -/
theorem step_sound (room : Room) (action : RoomAction)
    (sound : Sound server runtime room) :
    Sound server runtime (room.step server runtime browser action) := by
  cases action with
  | edit row text => exact ⟨sound.latest, sound.behind, sound.strip⟩
  | click row => exact ⟨sound.latest, sound.behind, sound.strip⟩
  | receive data =>
      refine ⟨?_, sound.behind, sound.strip⟩
      simp only [Room.step, Page.receive]
      split
      · exact sound.latest
      · exact sound.latest
  | tick now => exact sound_tick sound now
  | execute db session => exact sound_execute sound db session

/-- Issued calls stay where they are. -/
theorem issued_run (room : Room) (actions : List RoomAction) :
    ∃ more,
      (runActions (Room.step server runtime browser) room actions).issued =
        room.issued ++ more := by
  induction actions generalizing room with
  | nil =>
      exact ⟨[], (List.append_nil _).symm⟩
  | cons action rest inductionHypothesis =>
      obtain ⟨more, later⟩ :=
        inductionHypothesis (room.step server runtime browser action)
      have now :
          ∃ new,
            (room.step server runtime browser action).issued =
              room.issued ++ new := by
        cases action with
        | edit row text => exact ⟨[], (List.append_nil _).symm⟩
        | click row => exact ⟨[], (List.append_nil _).symm⟩
        | receive data => exact ⟨[], (List.append_nil _).symm⟩
        | tick time => exact ⟨_, rfl⟩
        | execute db session =>
            refine ⟨[], ?_⟩
            simp only [Room.step]
            split
            · exact (List.append_nil _).symm
            · exact (List.append_nil _).symm
      obtain ⟨new, added⟩ := now
      refine ⟨new ++ more, ?_⟩
      rw [runActions_cons, later, added, List.append_assoc]

/-- After a tick, the last call shows the locations of the table. -/
theorem latest_displays {room : Room} (sound : Sound server runtime room)
    (good : GoodTable room.page.table) (now : Nat) :
    ∃ call,
      (room.step server runtime browser (.tick now)).issued.getLast? =
          some call ∧
        Displays server runtime call
          (shortLocations browser room.page.table) := by
  have remembered :
      (room.step server runtime browser (.tick now)).page.globalloc =
        Client.locList browser room.page.table := rfl
  rcases (@sound_tick server runtime browser room sound now).latest with
    toggled | ⟨isInit, nothing⟩
  · rw [remembered] at toggled
    exact ⟨_, toggled, displays_toggle good⟩
  · have empty : shortLocations browser room.page.table = [] := by
      rw [remembered, locList_eq] at nothing
      cases found : shortLocations browser room.page.table with
      | nil => rfl
      | cons location rest =>
          rw [found] at nothing
          simp [hyphenated] at nothing
    rw [empty]
    exact ⟨_, isInit, displays_init⟩

theorem run_sound_room {room : Room} (sound : Sound server runtime room)
    (actions : List RoomAction) :
    Sound server runtime
      (runActions (Room.step server runtime browser) room actions) :=
  runActions_invariant (Sound server runtime)
    (fun current action kept _ => step_sound current action kept) sound
    (everyStep_of_forall (fun _ _ => trivial) room actions)

/-- The strip when the calls up to a tick have been executed. -/
theorem strip_after_tick {room : Room} (sound : Sound server runtime room)
    (good : GoodTable room.page.table) (now : Nat) (later : List RoomAction)
    (executed :
      (runActions (Room.step server runtime browser)
          (room.step server runtime browser (.tick now)) later).executed =
        (room.step server runtime browser (.tick now)).issued.length)
    {led : Nat} (onStrip : led < 200) :
    (runActions (Room.step server runtime browser)
        (room.step server runtime browser (.tick now)) later).strip led =
      shown (shortLocations browser room.page.table) led := by
  have atEnd :=
    @run_sound_room server runtime browser
      (room.step server runtime browser (.tick now))
      (step_sound room (.tick now) sound) later
  obtain ⟨call, isLast, displays⟩ :=
    @latest_displays server runtime browser room sound good now
  obtain ⟨more, issued⟩ :=
    @issued_run server runtime browser
      (room.step server runtime browser (.tick now)) later
  obtain ⟨before, calls⟩ := List.getLast?_eq_some_iff.mp isLast
  have count : (before ++ [call]).length = before.length + 1 := by
    simp
  have found : (before ++ [call] ++ more)[before.length]? = some call := by
    simp
  rw [calls, count] at executed
  rw [calls] at issued
  rw [← issued] at found
  exact atEnd.strip before.length call _ executed found displays led onStrip

end

/-- A page that is opened, and what happens to it. -/
def pageRun
    (server : Server) (runtime : Runtime) (browser : Browser)
    (orderId kitId : Int) (loaded opened : Nat) (initial : Strip)
    (actions : List RoomAction) : Room :=
  runActions (Room.step server runtime browser)
    (Room.opened orderId kitId loaded opened initial) actions

section

variable (server : Server) (runtime : Runtime) (browser : Browser)
variable (orderId kitId : Int) (loaded opened : Nat) (initial : Strip)

/-- As soon as the calls that were issued up to a tick have been executed, a
light is green if it belongs to the cell of a row that needed more items at
that tick, and off otherwise. -/
theorem lights_follow_table
    (earlier later : List RoomAction) (now : Nat)
    (good :
      GoodTable
        (pageRun server runtime browser orderId kitId loaded opened initial
          earlier).page.table)
    (executed :
      (pageRun server runtime browser orderId kitId loaded opened initial
          (earlier ++ .tick now :: later)).executed =
        (pageRun server runtime browser orderId kitId loaded opened initial
          (earlier ++ [.tick now])).issued.length)
    (led : Nat) (onStrip : led < 200) :
    (Wanted browser
          (pageRun server runtime browser orderId kitId loaded opened initial
            earlier).page.table led →
        (pageRun server runtime browser orderId kitId loaded opened initial
            (earlier ++ .tick now :: later)).strip led =
          Rgb.lit) ∧
      (¬ Wanted browser
            (pageRun server runtime browser orderId kitId loaded opened
              initial earlier).page.table led →
        (pageRun server runtime browser orderId kitId loaded opened initial
            (earlier ++ .tick now :: later)).strip led =
          Rgb.off) := by
  simp only [pageRun] at good executed ⊢
  rw [runActions_append, runActions_append, runActions_cons, runActions_cons,
    runActions_nil] at executed
  rw [runActions_append, runActions_cons]
  have sound :=
    @run_sound_room server runtime browser _
      (sound_opened orderId kitId loaded opened initial) earlier
  rw [strip_after_tick sound good now later executed onStrip]
  exact shown_shortLocations browser _ led

end

/-- A row for a cell of the cabinet. -/
def cellGoal (id count : Int) (location : String) : Goal where
  id := id
  description := some (bytes "bolt")
  pn := none
  sn := none
  weight := none
  location := some (bytes location)
  count := count
  target := 5
  inventory := some 10
  tagId := none
  archived := false

/-- Two rows are shown, the tick asks for the lights of the first, and both
calls of the page are executed. -/
def cellActions : List RoomAction :=
  [.receive [cellGoal 0 2 "01.A", cellGoal 1 5 "02.B", cellGoal 2 0 ""]]

theorem lights_follow_table_cells :
    (pageRun Server.plain Runtime.plain Browser.exact 1 0 0 1
            (fun _ => ⟨255, 0, 0⟩)
            (cellActions ++
              [.tick 2, .execute Db.empty Session.fresh, .edit 0 "5".toList,
                .tick 3, .execute Db.bolts Session.fresh])).strip 58 =
        Rgb.lit ∧
      (pageRun Server.plain Runtime.plain Browser.exact 1 0 0 1
            (fun _ => ⟨255, 0, 0⟩)
            (cellActions ++
              [.tick 2, .execute Db.empty Session.fresh, .edit 0 "5".toList,
                .tick 3, .execute Db.bolts Session.fresh])).strip 18 =
        Rgb.off := by
  have follows :=
    lights_follow_table Server.plain Runtime.plain Browser.exact 1 0 0 1
      (fun _ => ⟨255, 0, 0⟩) cellActions
      [.execute Db.empty Session.fresh, .edit 0 "5".toList, .tick 3,
        .execute Db.bolts Session.fresh] 2 (by decide) (by decide)
  have table :
      (pageRun Server.plain Runtime.plain Browser.exact 1 0 0 1
          (fun _ => ⟨255, 0, 0⟩) cellActions).page.table =
        [newTr (cellGoal 0 2 "01.A"), newTr (cellGoal 1 5 "02.B"),
          newTr (cellGoal 2 0 "")] := by
    decide
  rw [table] at follows
  have small :
      ∀ row ∈
          ([newTr (cellGoal 0 2 "01.A"), newTr (cellGoal 1 5 "02.B"),
            newTr (cellGoal 2 0 "")] : Table),
        SmallInteger row.target := by
    simp [SmallInteger, newTr, cellGoal]
  refine ⟨(follows 58 (by decide)).1 ?_, (follows 18 (by decide)).2 ?_⟩
  · exact
      (wanted_iff small 58).mpr
        ⟨_, List.mem_cons_self .., ⟨_, 2, rfl, parseInt_numeral 2, by decide⟩,
          58, by decide, by decide, by decide⟩
  · rw [← any_shortLocations]
    decide

end LtlsKitting.Cabinet
