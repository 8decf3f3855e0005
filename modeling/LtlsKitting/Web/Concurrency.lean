import LtlsKitting.Interaction.Interference
import LtlsKitting.Store.Statements
import LtlsKitting.Web.Access

/-!
# Requests that are answered at the same time

The server answers requests of different sessions side by side, and the
database executes their statements one at a time, in any order.  The numbering
of kits and groups needs nothing more.  The catalogue of the classes does: a
script looks a class up in one statement and inserts it in another one.  With
at most one script among the requests, whatever the others do, the catalogue
stays in order.
-/

namespace LtlsKitting.Web

open LtlsKitting.Php LtlsKitting.Store LtlsKitting.Operations
open LtlsKitting.Interaction

/-- Any number of requests, each in a session of its own, before the first
statement of any of them. -/
def startRequests {ι : Type}
    (runtime : Runtime) (db : Db) (requests : ι → HttpRequest × Session) :
    System ι Effect Answer Outcome Db :=
  System.start db
    (fun client => index runtime (requests client).1 (requests client).2)

/-- The statement that a request issues next, if any, fits. -/
def StatementFits {ι : Type}
    (server : Server) (system : System ι Effect Answer Outcome Db)
    (client : ι) : Prop :=
  ∀ effect, system.nextCall client = some effect →
    effect.Fits server system.store

section

variable {ι : Type} [DecidableEq ι]

theorem enumerated_step
    {server : Server} {system : System ι Effect Answer Outcome Db}
    (enumerated : system.store.Enumerated) (client : ι) :
    (system.step (perform server) client).store.Enumerated := by
  cases running : (system.clients client).program with
  | done value =>
      rw [System.step_done running]
      exact enumerated
  | call effect next =>
      rw [System.step_call running]
      exact enumerated_perform server enumerated effect

theorem catalogued_step_iff
    {server : Server} {system : System ι Effect Answer Outcome Db}
    (catalogued : system.store.Catalogued) (client : ι) :
    (system.step (perform server) client).store.Catalogued ↔
      StatementFits server system client := by
  cases running : (system.clients client).program with
  | done value =>
      rw [System.step_done running]
      apply iff_of_true catalogued
      intro effect next
      rw [System.nextCall_done running] at next
      cases next
  | call effect next =>
      rw [System.step_call running, StatementFits,
        System.nextCall_call running]
      dsimp only
      rw [catalogued_perform_iff server catalogued effect]
      constructor
      · rintro fits _ ⟨⟩
        exact fits
      · intro fits
        exact fits effect rfl

/-- Whatever requests are answered at the same time, several scripts among
them, kits and groups keep their numbers and no tag is listed twice. -/
theorem everyState_enumerated
    (server : Server) (runtime : Runtime) (db : Db)
    (requests : ι → HttpRequest × Session)
    (enumerated : db.Enumerated) (schedule : List ι) :
    EveryState (System.step (perform server))
      (fun system => system.store.Enumerated)
      (startRequests runtime db requests) schedule :=
  everyState_invariant
    (fun system : System ι Effect Answer Outcome Db =>
      system.store.Enumerated)
    (fun _ client holds _ => enumerated_step holds client) enumerated
    (everyStep_of_forall (fun _ _ => trivial) _ schedule)

/-- A script with one line of the inventory. -/
def boltRequest : HttpRequest where
  get := []
  post := [(bytes "code", .text (bytes "bolt,1"))]
  request := []

/-- Bob opens the kit. -/
def kitRequest : HttpRequest where
  get :=
    [(bytes "scenario", .text (bytes "kitting")),
      (bytes "order_id", .text (bytes "1")),
      (bytes "kit_id", .text (bytes "0"))]
  post := []
  request := []

/-- Two scripts at once. -/
def twoScripts : Bool → HttpRequest × Session :=
  fun _ => (boltRequest, bobSession)

theorem everyState_enumerated_twoScripts :
    EveryState (System.step (perform Server.plain))
      (fun system => system.store.Enumerated)
      (startRequests Runtime.plain
        { Db.empty with users := staffed.users } twoScripts)
      [false, true, false, true, false, true, false, true] :=
  everyState_enumerated Server.plain Runtime.plain
    { Db.empty with users := staffed.users } twoScripts
    (Db.enumerated_empty staffed.users)
    [false, true, false, true, false, true, false, true]

/-- The catalogue is in order in every state exactly if every statement fits
the state in which it is executed. -/
theorem everyState_catalogued_iff
    (server : Server) (runtime : Runtime) (db : Db)
    (requests : ι → HttpRequest × Session)
    (catalogued : db.Catalogued) (schedule : List ι) :
    EveryState (System.step (perform server))
        (fun system => system.store.Catalogued)
        (startRequests runtime db requests) schedule ↔
      EveryStep (System.step (perform server)) (StatementFits server)
        (startRequests runtime db requests) schedule := by
  have exactly :
      ∀ (system : System ι Effect Answer Outcome Db) (client : ι),
        True → system.store.Catalogued →
          ((system.step (perform server) client).store.Catalogued ↔
            StatementFits server system client) :=
    fun _ client _ holds => catalogued_step_iff holds client
  exact
    everyState_iff_everyStep (fun _ _ _ => trivial) exactly trivial
      catalogued

theorem catalogued_staffed : staffed.Catalogued :=
  ⟨(by decide : (staffed.classes.rows.map ClassRow.description).Nodup),
    (by decide :
      ∀ group ∈ staffed.groups,
        ∃ row ∈ staffed.classes.rows, row.id = group.classId)⟩

theorem everyState_catalogued_iff_twoScripts :
    EveryState (System.step (perform Server.plain))
        (fun system => system.store.Catalogued)
        (startRequests Runtime.plain staffed twoScripts)
        [false, true, false, true, false, true, false, true] ↔
      EveryStep (System.step (perform Server.plain))
        (StatementFits Server.plain)
        (startRequests Runtime.plain staffed twoScripts)
        [false, true, false, true, false, true, false, true] :=
  everyState_catalogued_iff Server.plain Runtime.plain staffed twoScripts
    catalogued_staffed [false, true, false, true, false, true, false, true]

/-- If both scripts look the class up before one of them inserts it, both
insert it. -/
example :
    (runActions (System.step (perform Server.plain))
        (startRequests Runtime.plain staffed twoScripts)
        [false, true, false, true, false, true,
          false, true]).store.catalogue =
      [(1, bytes "bolt"), (2, bytes "bolt")] := by
  decide

end

/-! ## One script among other requests -/

/-- The second store has the catalogue of the first one and its groups have
the same classes. -/
def SameCatalogue (before after : Db) : Prop :=
  after.catalogue = before.catalogue ∧
    after.groups.map GroupRow.classId = before.groups.map GroupRow.classId

/-- The catalogue stays in order. -/
def KeepsOrder (before after : Db) : Prop :=
  before.Catalogued → after.Catalogued

theorem SameCatalogue.keepsOrder {before after : Db}
    (same : SameCatalogue before after) : KeepsOrder before after :=
  fun catalogued => catalogued.congr same.1 same.2

/-- A program that keeps its place among others that leave the catalogue
alone. -/
abbrev WorksAmongOthers {α : Type}
    (server : Server) (after : α → Db → Prop) (program : Php α)
    (db : Db) : Prop :=
  program.Tolerates (perform server) SameCatalogue KeepsOrder after db

section

variable {server : Server} {db : Db}

theorem catalogue_of_reaches {current : Db}
    (reached : Reaches SameCatalogue db current) :
    current.catalogue = db.catalogue := by
  induction reached with
  | refl => rfl
  | tail _ moved inductionHypothesis =>
      exact moved.1.trans inductionHypothesis

theorem findClass_catalogue (db : Db) (description : Bytes) :
    db.findClass description =
      (db.catalogue.find? (fun entry => entry.2 = description)).map
        Prod.fst := by
  rw [Db.catalogue, List.find?_map, Option.map_map]
  rfl

theorem findClass_of_reaches {current : Db}
    (reached : Reaches SameCatalogue db current) (description : Bytes) :
    current.findClass description = db.findClass description := by
  rw [findClass_catalogue, findClass_catalogue, catalogue_of_reaches reached]

/-- A statement that fits keeps the catalogue in order. -/
theorem keepsOrder_perform {effect : Effect}
    (fits : effect.Fits server db) :
    KeepsOrder db (perform server effect db).2 :=
  fun catalogued =>
    (catalogued_perform_iff server catalogued effect).mpr fits

theorem keepsTables_works {α : Type} {program : Php α}
    (keeps : KeepsTables program) (db : Db) :
    WorksAmongOthers server (fun _ _ => True) program db :=
  keeps.tolerates
    (fun _ current allowed =>
      SameCatalogue.keepsOrder
        (catalogue_perform server (loads_of_catalogues allowed) current))
    db

/-- A statement that fits every state. -/
theorem query_works {effect : Effect}
    (fits : ∀ current, effect.Fits server current) (db : Db) :
    WorksAmongOthers server (fun _ _ => True) (query effect) db :=
  Program.tolerates_issue
    (fun current _ =>
      ⟨keepsOrder_perform (fits current), fun _ _ => trivial⟩)

/-- The class that is found or created exists as long as no script is loaded
by others. -/
theorem createClass_works (classname : Bytes) (db : Db) :
    WorksAmongOthers server
      (fun id current => id ∈ current.catalogue.map Prod.fst)
      (createClass classname) db := by
  rw [createClass, pgvalue_leadingName]
  have looked :
      WorksAmongOthers server
        (fun found current =>
          current.findClass (leadingName classname) = found)
        (query (.findClass (leadingName classname))) db := by
    apply Program.tolerates_issue
    intro current _
    exact
      ⟨fun catalogued => catalogued,
        fun later reached => findClass_of_reaches reached _⟩
  apply Program.tolerates_bind looked
  intro found current isFound
  cases found with
  | some id =>
      apply Program.tolerates_pure
      intro later reached
      obtain ⟨row, member, isId, _⟩ := Db.findClass_eq_some isFound
      rw [catalogue_of_reaches reached, Db.mem_catalogue_iff]
      exact ⟨row, member, isId⟩
  | none =>
      apply Program.tolerates_issue
      intro inserting reached
      have missing := findClass_of_reaches reached (leadingName classname)
      refine ⟨keepsOrder_perform (missing.trans isFound), ?_⟩
      intro later further
      rw [catalogue_of_reaches further, Db.mem_catalogue_iff]
      exact ⟨_, List.mem_append_right _ (List.mem_singleton_self _), rfl⟩

theorem createItemTag_works (tag : Bytes) {id : Int} {db : Db}
    (known : id ∈ db.catalogue.map Prod.fst) :
    WorksAmongOthers server
      (fun _ current => id ∈ current.catalogue.map Prod.fst)
      (createItemTag tag) db := by
  have kept :
      ∀ {before after : Db}, Reaches SameCatalogue before after →
        id ∈ before.catalogue.map Prod.fst →
          id ∈ after.catalogue.map Prod.fst := by
    intro before after reached member
    rw [catalogue_of_reaches reached]
    exact member
  simp only [createItemTag]
  split
  · exact
      Program.tolerates_pure (fun current reached => kept reached known)
  · have inserted :
        WorksAmongOthers server
          (fun _ current => id ∈ current.catalogue.map Prod.fst)
          (createRfid tag) db := by
      apply Program.tolerates_issue
      intro current reached
      refine ⟨keepsOrder_perform trivial, ?_⟩
      intro later further
      apply kept further
      rw [(catalogue_perform server rfl current).1]
      exact kept reached known
    apply Program.tolerates_bind inserted
    intro _ current member
    exact Program.tolerates_pure (fun later reached => kept reached member)

theorem processItem_works
    (orderId kitId : Option Int) (line : Bytes) (db : Db) :
    WorksAmongOthers server (fun _ _ => True)
      (processItem orderId kitId line) db := by
  simp only [processItem]
  cases itemFields line with
  | none => exact Program.tolerates_pure (fun _ _ => trivial)
  | some fields =>
      apply Program.tolerates_bind (createClass_works fields.className db)
      intro classId created member
      apply Program.tolerates_bind (createItemTag_works fields.tag member)
      intro tagId tagged known
      apply Program.tolerates_issue
      intro current reached
      refine ⟨keepsOrder_perform ?_, fun _ _ => trivial⟩
      intro _
      rw [← catalogue_of_reaches reached] at known
      exact Db.mem_catalogue_iff.mp known

theorem processInventory_works (line : Bytes) (db : Db) :
    WorksAmongOthers server (fun _ _ => True) (processInventory line) db := by
  simp only [processInventory]
  cases inventoryFields line with
  | none => exact Program.tolerates_pure (fun _ _ => trivial)
  | some fields =>
      apply Program.tolerates_bind (createClass_works fields.name db)
      intro classId current _
      exact query_works (fun _ => by trivial) current

theorem processHeader_works (state : LoopState) (line : Bytes) (db : Db) :
    WorksAmongOthers server (fun _ _ => True) (processHeader state line)
      db := by
  have finished :
      ∀ {α : Type} (value : α) (current : Db),
        WorksAmongOthers server (fun _ _ => True) (pure value) current :=
    fun _ _ => Program.tolerates_pure (fun _ _ => trivial)
  simp only [processHeader]
  cases sectionHeader line with
  | none => exact finished _ _
  | some name =>
      dsimp only
      split
      · apply Program.tolerates_bind (query_works (fun _ => by trivial) db)
        exact fun _ current _ => finished _ current
      · split
        · cases state.orderId with
          | none => exact finished _ _
          | some orderId =>
              apply Program.tolerates_bind (query_works (fun _ => by trivial) db)
              exact fun _ current _ => finished _ current
        · exact finished _ _

theorem processContent_works (state : LoopState) (line : Bytes) (db : Db) :
    WorksAmongOthers server (fun _ _ => True) (processContent state line)
      db := by
  have finished :
      WorksAmongOthers server (fun _ _ => True) (pure ()) db :=
    Program.tolerates_pure (fun _ _ => trivial)
  simp only [processContent]
  repeat' split
  · exact processInventory_works line db
  · exact query_works (fun _ => by trivial) db
  · exact finished
  · exact finished
  · exact processItem_works state.orderId state.kitId line db
  · exact query_works (fun _ => by trivial) db
  · exact finished

theorem processLine_works (state : LoopState) (line : Bytes) (db : Db) :
    WorksAmongOthers server (fun _ _ => True) (processLine state line)
      db := by
  simp only [processLine]
  split
  · exact Program.tolerates_pure (fun _ _ => trivial)
  · split
    · exact processHeader_works state line db
    · apply Program.tolerates_bind (processContent_works state line db)
      exact fun _ _ _ => Program.tolerates_pure (fun _ _ => trivial)

theorem scriptLoop_works
    (state : LoopState) (lines : List Bytes) (db : Db) :
    WorksAmongOthers server (fun _ _ => True) (scriptLoop state lines)
      db := by
  induction lines generalizing state db with
  | nil => exact Program.tolerates_pure (fun _ _ => trivial)
  | cons line rest inductionHypothesis =>
      apply Program.tolerates_bind (processLine_works state line db)
      exact fun next current _ => inductionHypothesis next current

theorem initScript_works
    (messages : List Message) (code : Param) (db : Db) :
    WorksAmongOthers server (fun _ _ => True) (initScript messages code)
      db := by
  simp only [initScript]
  apply Program.tolerates_bind (query_works (fun _ => by trivial) db)
  intro _ truncated _
  apply
    Program.tolerates_bind (scriptLoop_works _ (codeLines code) truncated)
  exact fun _ _ _ => Program.tolerates_pure (fun _ _ => trivial)

/-- A request that posts a script, or any other one, works among requests
that post none. -/
theorem index_works
    (runtime : Runtime) (request : HttpRequest) (session : Session)
    (db : Db) :
    WorksAmongOthers server (fun _ _ => True)
      (index runtime request session) db := by
  simp only [index]
  apply
    Program.tolerates_bind
      (keepsTables_works
        (keepsTables_of_reads (authenticate_reads request session)) db)
  intro authenticated current _
  have prepared :
      WorksAmongOthers server (fun _ _ => True)
        (prepare request session authenticated.1 authenticated.2)
        current := by
    by_cases harmless :
        authenticated.1 = none ∨ request.post.has (bytes "code") = false
    · exact
        keepsTables_works
          (prepare_keepsTables request session _ _ harmless) current
    · obtain ⟨someRole, posted⟩ := not_or.mp harmless
      obtain ⟨role, isRole⟩ := Option.ne_none_iff_exists'.mp someRole
      have given : request.post.has (bytes "code") = true := by
        simpa using posted
      obtain ⟨code, present⟩ := Option.isSome_iff_exists.mp given
      rw [isRole]
      simp only [prepare, operations]
      simp only [present]
      apply
        Program.tolerates_bind
          (keepsTables_works
            (keepsTables_of_reads (selectCurrent_reads _ _)) current)
      intro selected reached _
      apply Program.tolerates_bind (initScript_works _ code reached)
      exact fun _ _ _ => Program.tolerates_pure (fun _ _ => trivial)
  apply Program.tolerates_bind prepared
  intro ready later _
  apply
    Program.tolerates_bind
      (keepsTables_works (dispatch_keepsTables runtime request _ _ _) later)
  exact fun _ _ _ => Program.tolerates_pure (fun _ _ => trivial)

end

/-- A request that posts no script keeps the tables under any role. -/
theorem index_keepsTables
    (runtime : Runtime) {request : HttpRequest}
    (harmless : request.post.has (bytes "code") = false)
    (session : Session) : KeepsTables (index runtime request session) :=
  keepsTables_bind
    (keepsTables_of_reads (authenticate_reads request session))
    (fun _ =>
      keepsTables_bind
        (prepare_keepsTables request session _ _ (Or.inr harmless))
        (fun _ =>
          keepsTables_bind (dispatch_keepsTables runtime request _ _ _)
            (fun _ => keepsTables_pure _)))

/-- If at most one of the requests posts a script, the catalogue stays in
order, however the statements of the requests are interleaved. -/
theorem everyState_catalogued
    {ι : Type} [DecidableEq ι]
    (server : Server) (runtime : Runtime) (db : Db)
    (requests : ι → HttpRequest × Session) (writer : ι)
    (others :
      ∀ client, client ≠ writer →
        (requests client).1.post.has (bytes "code") = false)
    (catalogued : db.Catalogued) (schedule : List ι) :
    EveryState (System.step (perform server))
      (fun system => system.store.Catalogued)
      (startRequests runtime db requests) schedule := by
  let own : ι → Db → Db → Prop :=
    fun client => if client = writer then KeepsOrder else SameCatalogue
  let met : ι → Db → Db → Prop :=
    fun client =>
      if client = writer then SameCatalogue else fun _ _ => True
  have compatible :
      ∀ client other, other ≠ client → ∀ before after,
        own client before after → met other before after := by
    intro client other different before after allowed
    by_cases isWriter : other = writer
    · have reader : client ≠ writer := fun same =>
        different (isWriter.trans same.symm)
      simp only [own, if_neg reader] at allowed
      simpa only [met, if_pos isWriter] using allowed
    · simp only [met, if_neg isWriter]
  have tolerant :
      (startRequests runtime db requests).Tolerant (perform server) met
        own := by
    intro client
    change
      (index runtime (requests client).1 (requests client).2).Tolerates
        (perform server) (met client) (own client) (fun _ _ => True) db
    by_cases isWriter : client = writer
    · simp only [own, met, if_pos isWriter]
      exact index_works runtime _ _ db
    · simp only [own, met, if_neg isWriter]
      exact
        (index_keepsTables runtime (others client isWriter) _).tolerates
          (fun _ current keeps =>
            catalogue_perform server (loads_of_catalogues keeps) current)
          db
  apply tolerant.everyState compatible _ catalogued schedule
  intro client before after allowed
  by_cases isWriter : client = writer
  · simp only [own, if_pos isWriter] at allowed
    exact allowed
  · simp only [own, if_neg isWriter] at allowed
    exact SameCatalogue.keepsOrder allowed

/-- A script, and the page of a kit. -/
def scriptAndPage : Bool → HttpRequest × Session
  | false => (boltRequest, bobSession)
  | true => (kitRequest, bobSession)

theorem everyState_catalogued_scriptAndPage :
    EveryState (System.step (perform Server.plain))
      (fun system => system.store.Catalogued)
      (startRequests Runtime.plain staffed scriptAndPage)
      [true, false, true, false, true, false, true, false] := by
  apply
    everyState_catalogued Server.plain Runtime.plain staffed scriptAndPage
      false
  · intro client other
    cases client with
    | false => exact absurd rfl other
    | true => rfl
  · exact catalogued_staffed

end LtlsKitting.Web
