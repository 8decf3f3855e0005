import LtlsKitting.Web.Index

/-!
# What a role may do

Which requests can reset or load the tables, and which requests without a
role have an effect.  Both questions are answered exactly: the reset is bound
to the parameter `code` and to some role, not to the administrator, and the
calls `print` and `cabinet` are answered without a role.
-/

namespace LtlsKitting.Web

open LtlsKitting.Php LtlsKitting.Store LtlsKitting.Operations
open LtlsKitting.Sync LtlsKitting.Interaction

/-! ## Programs that do not load the tables -/

/-- On no branch does the program reset a table or insert a row. -/
def KeepsTables {α : Type} (program : Php α) : Prop :=
  program.Issues (fun effect => effect.loads = false)

section

variable {α β : Type}

theorem keepsTables_pure (value : α) : KeepsTables (pure value : Php α) :=
  Program.issues_pure _ value

theorem keepsTables_query {effect : Effect} (keeps : effect.loads = false) :
    KeepsTables (query effect) :=
  Program.issues_issue keeps

theorem keepsTables_bind
    {program : Php α} {following : α → Php β}
    (first : KeepsTables program)
    (second : ∀ value, KeepsTables (following value)) :
    KeepsTables (program >>= following) :=
  Program.issues_bind first second

theorem keepsTables_of_reads
    {program : Php α}
    (reads : program.Issues (fun effect => effect.reads = true)) :
    KeepsTables program := by
  apply reads.imp
  intro effect lookup
  cases effect <;> first | rfl | cases lookup

end

theorem processRequest_keepsTables
    (orderId kitId : Int) (request : SyncRequest) :
    KeepsTables (processRequest orderId kitId request) := by
  cases request with
  | status status =>
      exact keepsTables_query rfl
  | row id value tag =>
      have counting :
          ∀ affected, KeepsTables
            (updateCount ⟨orderId, kitId, id⟩ value affected) := by
        intro affected
        simp only [updateCount]
        split
        · exact keepsTables_query rfl
        · exact keepsTables_pure ()
      have tagging :
          KeepsTables (assignTag ⟨orderId, kitId, id⟩ tag) := by
        cases tag with
        | false =>
            exact keepsTables_pure ()
        | true =>
            exact
              keepsTables_bind (keepsTables_query rfl)
                (fun _ => keepsTables_query rfl)
      exact
        keepsTables_bind (keepsTables_query rfl)
          (fun affected =>
            keepsTables_bind (counting affected) (fun _ => tagging))

theorem syncKit_keepsTables
    (orderId kitId : Int) (requests : List SyncRequest) :
    KeepsTables (syncKit orderId kitId requests) := by
  have loop : KeepsTables (requestsLoop orderId kitId requests) := by
    induction requests with
    | nil =>
        exact keepsTables_pure ()
    | cons request rest inductionHypothesis =>
        exact
          keepsTables_bind (processRequest_keepsTables orderId kitId request)
            (fun _ => inductionHypothesis)
  exact keepsTables_bind loop (fun _ => keepsTables_query rfl)

theorem pages_keepsTables
    (role : Role) (get : Params)
    (order : Option OrderRow) (kit : Option KitRow) :
    KeepsTables (pages role get order kit) := by
  have led :
      ∀ {α : Type} (following : Unit → Php α),
        (∀ value, KeepsTables (following value)) →
          KeepsTables (query (.shell ledOff) >>= following) :=
    fun following rest => keepsTables_bind (keepsTables_query rfl) rest
  simp only [pages]
  split
  · split
    · apply keepsTables_bind
      · simp only [assignOpened]
        split
        · exact keepsTables_pure ()
        · exact keepsTables_query rfl
      · intro _
        exact
          keepsTables_bind (keepsTables_query rfl)
            (fun _ => keepsTables_pure _)
    · exact
        led _ (fun _ =>
          keepsTables_bind (keepsTables_query rfl)
            (fun _ => keepsTables_pure _))
    · exact
        led _ (fun _ =>
          keepsTables_bind (keepsTables_query rfl)
            (fun _ => keepsTables_pure _))
  · split
    · exact keepsTables_pure _
    · exact led _ (fun _ => keepsTables_pure _)

theorem ajax_keepsTables
    (runtime : Runtime) (request : HttpRequest)
    (order : Option OrderRow) (kit : Option KitRow) :
    KeepsTables (ajax runtime request order kit) := by
  simp only [ajax]
  split
  · exact
      keepsTables_bind (keepsTables_query rfl) (fun _ => keepsTables_pure _)
  · split
    · exact
        keepsTables_bind (keepsTables_query rfl)
          (fun _ => keepsTables_pure _)
    · split
      · exact
          keepsTables_bind (syncKit_keepsTables _ _ _)
            (fun _ => keepsTables_pure _)
      · exact keepsTables_pure _

theorem dispatch_keepsTables
    (runtime : Runtime) (request : HttpRequest) (role : Option Role)
    (current : Option OrderRow × Option KitRow) (messages : List Message) :
    KeepsTables (dispatch runtime request role current messages) := by
  simp only [dispatch]
  split
  · exact
      keepsTables_bind (ajax_keepsTables runtime request _ _)
        (fun _ => keepsTables_pure _)
  · split
    · exact keepsTables_pure _
    · have content :
          KeepsTables (pageContent role request.get current.1 current.2) := by
        cases role with
        | none => exact keepsTables_pure _
        | some someone => exact pages_keepsTables someone _ _ _
      have page :
          KeepsTables
            (display role request.get messages current.1 current.2) :=
        keepsTables_bind content (fun _ => keepsTables_pure _)
      exact keepsTables_bind page (fun _ => keepsTables_pure _)

/-! ## Reset and load -/

theorem prepare_keepsTables
    (request : HttpRequest) (session : Session) (role : Option Role)
    (loginName : Bool)
    (harmless : role = none ∨ request.post.has (bytes "code") = false) :
    KeepsTables (prepare request session role loginName) := by
  cases role with
  | none =>
      exact keepsTables_pure _
  | some current =>
      have absent : request.post.value (bytes "code") = none := by
        rcases harmless with impossible | absent
        · cases impossible
        · exact Option.isNone_iff_eq_none.mp (by simpa [Params.has] using absent)
      simp only [prepare, operations]
      simp only [absent]
      exact
        keepsTables_bind (keepsTables_of_reads (selectCurrent_reads _ _))
          (fun _ => keepsTables_pure _)

theorem truncate_mem_prepare
    (server : Server) (db : Db) (request : HttpRequest)
    (session : Session) (role : Role) (loginName : Bool)
    (posted : request.post.has (bytes "code") = true) :
    Effect.truncate ∈
      (prepare request session (some role) loginName).trace
        (perform server) db := by
  obtain ⟨code, present⟩ := Option.isSome_iff_exists.mp posted
  simp only [prepare, operations]
  simp only [present]
  rw [Program.trace_bind]
  exact List.mem_append_right _ (List.mem_cons_self ..)

/-- A request keeps all tables without a reset and without a new row exactly
if it has no role or posts no script, whoever sends it. -/
theorem trace_keepsTables_iff
    (server : Server) (runtime : Runtime) (db : Db)
    (request : HttpRequest) (session : Session) :
    (∀ effect ∈ (index runtime request session).trace (perform server) db,
        effect.loads = false) ↔
      requestRole server db request session = none ∨
        request.post.has (bytes "code") = false := by
  obtain ⟨loginName, current, messages, effects⟩ :=
    trace_index server db runtime request session
  rw [effects]
  constructor
  · intro kept
    by_contra loading
    obtain ⟨someRole, posted⟩ := not_or.mp loading
    obtain ⟨role, found⟩ := Option.ne_none_iff_exists'.mp someRole
    have present : request.post.has (bytes "code") = true := by
      simpa using posted
    have reset :=
      truncate_mem_prepare server db request session role loginName present
    have impossible :=
      kept .truncate
        (List.mem_append_right _
          (List.mem_append_left _ (by rw [found]; exact reset)))
    cases impossible
  · intro harmless effect member
    rcases List.mem_append.mp member with first | rest
    · exact
        (keepsTables_of_reads (authenticate_reads request session)).trace
          _ _ effect first
    · rcases List.mem_append.mp rest with second | third
      · exact
          (prepare_keepsTables request session _ loginName harmless).trace
            _ _ effect second
      · exact
          (dispatch_keepsTables runtime request _ current messages).trace
            _ _ effect third

/-- That only the administrator resets or loads the tables is true of a
request exactly if it is one of the administrator, has no role, or posts no
script. -/
theorem only_admin_loads_iff
    (server : Server) (runtime : Runtime) (db : Db)
    (request : HttpRequest) (session : Session) :
    (((index runtime request session).eval (perform server) db).role.map
          Role.id ≠ some ltlsAdmin →
        ∀ effect ∈ (index runtime request session).trace (perform server) db,
          effect.loads = false) ↔
      (requestRole server db request session).map Role.id = some ltlsAdmin ∨
        requestRole server db request session = none ∨
          request.post.has (bytes "code") = false := by
  rw [role_index, trace_keepsTables_iff]
  constructor
  · intro kept
    by_cases admin :
        (requestRole server db request session).map Role.id = some ltlsAdmin
    · exact Or.inl admin
    · exact Or.inr (kept admin)
  · rintro (admin | harmless) unprivileged
    · exact absurd admin unprivileged
    · exact harmless

/-- An empty script. -/
def resetRequest : HttpRequest where
  get := []
  post := [(bytes "code", .text [])]
  request := []

/-- A user who is not the administrator posts an empty script, and the tables
are reset. -/
theorem user_resets_tables :
    ((index Runtime.plain resetRequest bobSession).eval
          (perform Server.plain) staffed).role =
        some ⟨1, bytes "Bob"⟩ ∧
      ¬ ∀ effect ∈
          (index Runtime.plain resetRequest bobSession).trace
            (perform Server.plain) staffed,
          effect.loads = false := by
  refine ⟨?_, ?_⟩
  · decide
  · intro kept
    exact absurd (kept .truncate (by decide)) (by decide)

/-! ## Requests without a role -/

/-- The calls that `ajax.php` answers before it looks at the kit. -/
def HttpRequest.drivesDevice (request : HttpRequest) : Bool :=
  request.get.has (bytes "ajax") &&
    ((request.get.has (bytes "print") && request.get.has (bytes "material")) ||
      request.get.has (bytes "cabinet"))

/-- Without a kit, a call either starts one command or has no effect. -/
theorem ajax_without_kit
    (runtime : Runtime) (request : HttpRequest) :
    (∃ command reply,
        ((request.get.has (bytes "print") &&
              request.get.has (bytes "material")) ||
            request.get.has (bytes "cabinet")) = true ∧
          ajax runtime request none none =
            (query (.shell command) >>= fun _ => pure reply)) ∨
      ((request.get.has (bytes "print") &&
            request.get.has (bytes "material")) ||
          request.get.has (bytes "cabinet")) = false ∧
        ajax runtime request none none = pure .noKit := by
  simp only [ajax]
  split
  next printing material present =>
    left
    refine ⟨_, _, ?_, rfl⟩
    simp [Params.has, *]
  next absent =>
    have notPrinting :
        (request.get.has (bytes "print") &&
          request.get.has (bytes "material")) = false := by
      simp only [Params.has]
      cases first : request.get.value (bytes "print") with
      | none => rfl
      | some printing =>
          cases second : request.get.value (bytes "material") with
          | none => rfl
          | some material => exact absurd second (absent _ _ first)
    rw [notPrinting, Bool.false_or]
    cases cabinet : request.get.has (bytes "cabinet") with
    | false =>
        exact Or.inr ⟨rfl, rfl⟩
    | true =>
        exact Or.inl ⟨_, _, rfl, rfl⟩

theorem dispatch_roleless
    (runtime : Runtime) (request : HttpRequest) (messages : List Message) :
    (∃ command result,
        request.drivesDevice = true ∧
          dispatch runtime request none (none, none) messages =
            (query (.shell command) >>= fun _ => pure result)) ∨
      ∃ result,
        request.drivesDevice = false ∧
          dispatch runtime request none (none, none) messages =
            pure result := by
  simp only [dispatch, HttpRequest.drivesDevice]
  cases request.get.has (bytes "ajax") with
  | false =>
      right
      refine
        ⟨(.page none (messages.map Alert.ofMessage) .login, []), rfl, ?_⟩
      simp only [Option.isSome_none, Bool.and_false, Bool.false_eq_true,
        if_false]
      rfl
  | true =>
      simp only [Bool.true_and, if_true]
      rcases ajax_without_kit runtime request with
        ⟨command, reply, drives, call⟩ | ⟨quiet, call⟩
      · left
        refine ⟨command, (reply, messages), drives, ?_⟩
        rw [call, Program.bind_bind]
        rfl
      · right
        refine ⟨(.noKit, messages), quiet, ?_⟩
        rw [call]
        rfl

/-- Without a role, a request consists of the lookups of the authentication
and the reply. -/
theorem index_roleless
    {server : Server} {db : Db} {request : HttpRequest} {session : Session}
    (roleless : requestRole server db request session = none)
    (runtime : Runtime) :
    ∃ messages,
      (index runtime request session).trace (perform server) db =
          (authenticate request session).trace (perform server) db ++
            (dispatch runtime request none (none, none) messages).trace
              (perform server) db ∧
        (index runtime request session).exec (perform server) db =
          (dispatch runtime request none (none, none) messages).exec
            (perform server) db := by
  simp only [index]
  rw [Program.trace_bind, Program.exec_bind, eval_authenticate, roleless,
    exec_of_reads (authenticate_reads request session) server db]
  refine
    ⟨deniedMessages session
        ((authenticate request session).eval (perform server) db).2
        (session.messages.getD []), ?_, ?_⟩
  · congr 1
    rw [Program.trace_bind, Program.trace_bind, Program.trace_pure,
      List.append_nil]
    rfl
  · rw [Program.exec_bind, Program.exec_bind]
    rfl

/-- A request without a role leaves the database as it is; it starts no
external command exactly if it is not a call that prints or switches the
lights. -/
theorem roleless_no_effect_iff
    (server : Server) (runtime : Runtime) (db : Db)
    (request : HttpRequest) (session : Session)
    (roleless :
      ((index runtime request session).eval (perform server) db).role =
        none) :
    ((index runtime request session).exec (perform server) db = db ∧
        ∀ command,
          Effect.shell command ∉
            (index runtime request session).trace (perform server) db) ↔
      request.drivesDevice = false := by
  rw [role_index] at roleless
  obtain ⟨messages, effects, final⟩ := index_roleless roleless runtime
  have lookups :
      ∀ command,
        Effect.shell command ∉
          (authenticate request session).trace (perform server) db := by
    intro command member
    have reads :=
      (authenticate_reads request session).trace (perform server) db _ member
    cases reads
  rw [effects, final]
  rcases dispatch_roleless runtime request messages with
    ⟨command, result, drives, reply⟩ | ⟨result, quiet, reply⟩
  · rw [reply, drives]
    constructor
    · rintro ⟨_, silent⟩
      exact
        absurd (List.mem_append_right _ (List.mem_cons_self ..))
          (silent command)
    · intro impossible
      cases impossible
  · rw [reply, quiet]
    constructor
    · intro _
      rfl
    · intro _
      refine ⟨rfl, ?_⟩
      intro command member
      rcases List.mem_append.mp member with first | second
      · exact lookups command first
      · cases second

/-- A call for the first kit of the first order. -/
def kitCall : HttpRequest where
  get :=
    [(bytes "ajax", .text (bytes "1")),
      (bytes "order_id", .text (bytes "1")),
      (bytes "kit_id", .text (bytes "0"))]
  post := [(bytes "code", .text [])]
  request := []

theorem roleless_no_effect_iff_kitCall :
    ((index Runtime.plain kitCall Session.fresh).exec
          (perform Server.plain) staffed =
        staffed ∧
        ∀ command,
          Effect.shell command ∉
            (index Runtime.plain kitCall Session.fresh).trace
              (perform Server.plain) staffed) ↔
      kitCall.drivesDevice = false :=
  roleless_no_effect_iff Server.plain Runtime.plain staffed kitCall
    Session.fresh (by decide)

/-- A call that switches off the lights of the cabinet. -/
def cabinetCall : HttpRequest where
  get :=
    [(bytes "ajax", .text (bytes "1")),
      (bytes "cabinet", .text (bytes "1")),
      (bytes "state", .text (bytes "3"))]
  post := []
  request := []

theorem roleless_switches_lights :
    ((index Runtime.plain cabinetCall Session.fresh).eval
          (perform Server.plain) staffed).role =
        none ∧
      Effect.shell (bytes "python scripts/led.py 3 ") ∈
        (index Runtime.plain cabinetCall Session.fresh).trace
          (perform Server.plain) staffed := by
  refine ⟨?_, ?_⟩
  · decide
  · decide

end LtlsKitting.Web
