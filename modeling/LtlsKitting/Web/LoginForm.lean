import LtlsKitting.Formats.LineEnds
import LtlsKitting.Operations.Newlines
import LtlsKitting.Web.Access
import LtlsKitting.Web.Credentials
import LtlsKitting.Web.Forms

/-!
# The form of the login

A request without a role is answered with a form for a name and a password.
The form holds all parameters of the request as hidden fields, so that the
login posts them again, those of the URL included.  A script among them, which
the request could not load, is loaded by the login; the view that the request
asked for is lost.
-/

namespace LtlsKitting.Web

open LtlsKitting.Php LtlsKitting.Store LtlsKitting.Operations
open LtlsKitting.Cabinet LtlsKitting.Formats LtlsKitting.Interaction

/-- What `htmlentities` writes into an attribute and what the browser reads
from it.  A text that is not valid is written as the empty text.  Nothing is
said of a zero byte, for which the browser reads another character. -/
structure Markup where
  valid : Bytes → Bool
  htmlentities : Bytes → Bytes
  readAttribute : Bytes → Bytes
  readAttribute_htmlentities :
    ∀ text, 0 ∉ text →
      readAttribute (htmlentities text) =
        if valid text then toLineFeeds text else []
  valid_plain : ∀ name, isPlainName name = true → valid name = true

/-! ## From the form to the request -/

/-- The parameters that the form holds; after a logout, none. -/
def HttpRequest.carried (request : HttpRequest) : Params :=
  if request.logout then [] else request.request

/-- The hidden fields of `loginscreen.php`. -/
def hiddenFields (markup : Markup) (request : HttpRequest) :
    List (Bytes × Bytes) :=
  request.carried.map (fun entry =>
    (markup.htmlentities entry.1, markup.htmlentities entry.2.scalar))

/-- The fields of the form as the browser submits them. -/
def loginEntries
    (markup : Markup) (request : HttpRequest) (username password : Bytes) :
    List (Bytes × Bytes) :=
  ((hiddenFields markup request).map (fun field =>
      (markup.readAttribute field.1, markup.readAttribute field.2)) ++
    [(bytes "username", username), (bytes "password", password)]).map
    (fun entry => (toReturns entry.1, toReturns entry.2))

/-- The characters that a form keeps. -/
def isFormKept (byte : UInt8) : Bool :=
  isUrlKept byte || byte == 42

def formEncodeByte (byte : UInt8) : Bytes :=
  if isFormKept byte then [byte]
  else if byte == 32 then [43]
  else percentCode byte

theorem isFormKept_ne {byte : UInt8} (kept : isFormKept byte = true) :
    byte ≠ 37 ∧ byte ≠ 43 ∧ byte ≠ 38 ∧ byte ≠ 61 := by
  refine ⟨?_, ?_, ?_, ?_⟩ <;> (rintro rfl; exact absurd kept (by decide))

/-- The codes of a submitted form. -/
def submitCode : SymbolCode UInt8 UInt8 where
  code := formEncodeByte
  read := urldecode
  read_nil := formCode.read_nil
  read_code := by
    intro byte rest
    simp only [formEncodeByte]
    split
    next kept =>
      have plain := isFormKept_ne kept
      exact urldecode_cons ⟨plain.1, plain.2.1⟩ rest
    next =>
      split
      next blank =>
        rw [beq_iff_eq.mp blank]
        rfl
      next => exact urldecode_percentCode byte rest

theorem isFormCode_submitCode : IsFormCode submitCode where
  read := rfl
  avoids := by
    intro byte
    have avoids :
        ∀ delimiter : UInt8, isAlnum delimiter = false →
          delimiter ≠ 37 → delimiter ≠ 43 →
            isFormKept delimiter = false → delimiter ∉ formEncodeByte byte := by
      intro delimiter special percent plus dropped
      simp only [formEncodeByte]
      split
      next kept =>
        rw [List.mem_singleton]
        rintro rfl
        rw [dropped] at kept
        cases kept
      next =>
        split
        next => exact fun member => plus (List.mem_singleton.mp member)
        next => exact not_mem_percentCode special percent byte
    exact
      ⟨avoids 38 (by decide) (by decide) (by decide) (by decide),
        avoids 61 (by decide) (by decide) (by decide) (by decide)⟩

/-- The request of a browser that submits the form: it is posted to the page
without a query. -/
def submitLogin
    (markup : Markup) (limit : Nat) (request : HttpRequest)
    (username password : Bytes) : HttpRequest where
  get := []
  post :=
    formParams limit
      (implode 38
        ((loginEntries markup request username password).map
          (codedField submitCode)))
  request :=
    formParams limit
      (implode 38
        ((loginEntries markup request username password).map
          (codedField submitCode)))

/-- What the form submits for a parameter. -/
def submitted (markup : Markup) (value : Param) : Bytes :=
  toReturns (markup.readAttribute (markup.htmlentities value.scalar))

/-- The text of a parameter without a zero byte that a form posts again. -/
def postedAgain (markup : Markup) (value : Param) : Bytes :=
  if markup.valid value.scalar then toReturns value.scalar else []

/-- The name and the password as they are posted. -/
def typedLogin (username password : Bytes) : Params :=
  [(bytes "username", .text (toReturns username)),
    (bytes "password", .text (toReturns password))]

/-! ## Reading the fields -/

theorem lookup_cons_eq
    {α : Type} (name : Bytes) (entry : Bytes × α)
    (rest : List (Bytes × α)) :
    (entry :: rest).lookup name =
      if name = entry.1 then some entry.2 else rest.lookup name := by
  rw [List.lookup_cons]
  by_cases same : name = entry.1
  · simp [same]
  · have different : (name == entry.1) = false :=
      beq_eq_false_iff_ne.mpr same
    rw [different, if_neg same]

theorem lookup_replaced
    (params : Params) (name other : Bytes) (value : Param) :
    (params.map (fun entry =>
          if entry.1 = name then (name, value) else entry)).lookup other =
      if other = name then (params.lookup other).map (fun _ => value)
      else params.lookup other := by
  induction params with
  | nil => simp
  | cons entry rest inductionHypothesis =>
      rw [List.map_cons, lookup_cons_eq, lookup_cons_eq,
        inductionHypothesis]
      by_cases same : other = name
      · by_cases here : entry.1 = name
        · simp [same, here]
        · simp [same, here, Ne.symm here]
      · by_cases here : entry.1 = name
        · simp [same, here]
        · simp [same, here]

theorem value_setParam
    (params : Params) (name other : Bytes) (value : Param) :
    (setParam params name value).value other =
      if other = name then some value else params.value other := by
  rw [setParam]
  split
  next present =>
    rw [Params.value, lookup_replaced]
    split
    next same =>
      rw [Params.has, Params.value] at present
      obtain ⟨old, isOld⟩ := Option.isSome_iff_exists.mp present
      rw [same, isOld]
      rfl
    next => rfl
  next missing =>
    rw [Params.value, List.lookup_append]
    split
    next same =>
      rw [Params.has, Params.value, Bool.not_eq_true, Option.isSome_eq_false_iff,
        Option.isNone_iff_eq_none] at missing
      rw [same, missing]
      simp
    next different =>
      rw [lookup_cons_eq, if_neg different, List.lookup_nil, Option.or_none]
      rfl

/-- Of fields with the same name, the last one counts. -/
theorem value_foldl_registerVariable
    {entries : List (Bytes × Bytes)}
    (plain : ∀ entry ∈ entries, isPlainName entry.1 = true)
    (before : Params) (name : Bytes) :
    (entries.foldl registerVariable before).value name =
      ((entries.reverse.lookup name).map Param.text).or
        (before.value name) := by
  induction entries generalizing before with
  | nil => rfl
  | cons entry rest inductionHypothesis =>
      rw [List.foldl_cons,
        inductionHypothesis
          (fun other member => plain other (List.mem_cons_of_mem _ member)),
        registerVariable_eq (plain entry (List.mem_cons_self ..)),
        value_setParam, List.reverse_cons, List.lookup_append, lookup_cons_eq]
      by_cases same : name = entry.1
      · cases rest.reverse.lookup name <;> simp [same]
      · cases rest.reverse.lookup name <;> simp [same]

/-- Of different names, each occurs once. -/
theorem lookup_reverse
    {α : Type} {entries : List (Bytes × α)}
    (different : (entries.map Prod.fst).Nodup) (name : Bytes) :
    entries.reverse.lookup name = entries.lookup name := by
  induction entries with
  | nil => rfl
  | cons entry rest inductionHypothesis =>
      rw [List.map_cons, List.nodup_cons] at different
      rw [List.reverse_cons, List.lookup_append,
        inductionHypothesis different.2, lookup_cons_eq, lookup_cons_eq]
      by_cases same : name = entry.1
      · have missing : rest.lookup name = none := by
          rw [List.lookup_eq_none_iff]
          intro other member
          rw [bne_iff_ne]
          rintro rfl
          exact different.1 (same ▸ List.mem_map_of_mem member)
        rw [missing, if_pos same, if_pos same]
        rfl
      · cases rest.lookup name <;> simp [same]

theorem lookup_map_snd
    {α β : Type} (entries : List (Bytes × α)) (change : α → β)
    (name : Bytes) :
    (entries.map (fun entry => (entry.1, change entry.2))).lookup name =
      (entries.lookup name).map change := by
  induction entries with
  | nil => rfl
  | cons entry rest inductionHypothesis =>
      rw [List.map_cons, lookup_cons_eq, lookup_cons_eq,
        inductionHypothesis]
      by_cases same : name = entry.1 <;> simp [same]

/-! ## What the login posts -/

theorem not_mem_of_isPlainName
    {name : Bytes} (plain : isPlainName name = true) {byte : UInt8}
    (special : (isAlnum byte || byte == 45 || byte == 95) = false) :
    byte ∉ name := by
  simp only [isPlainName, Bool.and_eq_true, List.all_eq_true] at plain
  intro member
  rw [plain.2 byte member] at special
  cases special

/-- The parameters of a request have plain names, each its own. -/
structure PlainNames (params : Params) : Prop where
  plain : ∀ entry ∈ params, isPlainName entry.1 = true
  different : (params.map Prod.fst).Nodup

section

variable {markup : Markup} {request : HttpRequest}

theorem PlainNames.carried (names : PlainNames request.request) :
    PlainNames request.carried := by
  rw [HttpRequest.carried]
  split
  · exact ⟨fun entry member => absurd member List.not_mem_nil, .nil⟩
  · exact names

theorem length_carried : request.carried.length ≤ request.request.length := by
  rw [HttpRequest.carried]
  split
  · exact Nat.zero_le _
  · exact Nat.le_refl _

theorem carried_logout : request.carried.value (bytes "logout") = none := by
  rw [HttpRequest.carried]
  split
  · rfl
  next staying =>
    rw [HttpRequest.logout, Params.has, Bool.not_eq_true,
      Option.isSome_eq_false_iff, Option.isNone_iff_eq_none] at staying
    exact staying

theorem submitted_eq (markup : Markup) {value : Param}
    (whole : 0 ∉ value.scalar) :
    submitted markup value = postedAgain markup value := by
  rw [submitted, markup.readAttribute_htmlentities _ whole, postedAgain]
  split
  next => exact toReturns_toLineFeeds _
  next => rfl

/-- The browser submits the names as they were. -/
theorem loginEntries_eq
    (names : PlainNames request.carried)
    (username password : Bytes) :
    loginEntries markup request username password =
      request.carried.map (fun entry =>
          (entry.1, submitted markup entry.2)) ++
        [(bytes "username", toReturns username),
          (bytes "password", toReturns password)] := by
  have fields : ∀ entry ∈ request.carried,
      (toReturns (markup.readAttribute (markup.htmlentities entry.1)),
          toReturns
            (markup.readAttribute (markup.htmlentities entry.2.scalar))) =
        (entry.1, submitted markup entry.2) := by
    intro entry member
    have plain := names.plain entry member
    have single : 13 ∉ entry.1 ∧ 10 ∉ entry.1 :=
      ⟨not_mem_of_isPlainName plain (by decide),
        not_mem_of_isPlainName plain (by decide)⟩
    refine Prod.ext ?_ rfl
    dsimp only
    rw [markup.readAttribute_htmlentities _
        (not_mem_of_isPlainName plain (by decide)),
      if_pos (markup.valid_plain _ plain), toReturns_toLineFeeds]
    exact withLineEnds_of_not_mem single false
  rw [loginEntries, hiddenFields, List.map_append, List.map_map,
    List.map_map]
  exact congrArg (· ++ _) (List.map_congr_left fields)

theorem plain_loginEntries
    (names : PlainNames request.carried)
    (username password : Bytes) :
    ∀ entry ∈ loginEntries markup request username password,
      isPlainName entry.1 = true := by
  rw [loginEntries_eq names]
  intro entry member
  rcases List.mem_append.mp member with hidden | typed
  · obtain ⟨origin, known, rfl⟩ := List.mem_map.mp hidden
    exact names.plain origin known
  · simp only [List.mem_cons, List.not_mem_nil, or_false] at typed
    rcases typed with rfl | rfl
    · exact (by decide : isPlainName (bytes "username") = true)
    · exact (by decide : isPlainName (bytes "password") = true)

/-- The posted parameters: the name and the password that were typed, and
everything else as the request had it. -/
theorem value_submitLogin
    (names : PlainNames request.carried)
    {limit : Nat} (few : request.carried.length + 2 ≤ limit)
    (username password : Bytes) (name : Bytes) :
    (submitLogin markup limit request username password).post.value name =
      if name = bytes "password" then some (.text (toReturns password))
      else if name = bytes "username" then some (.text (toReturns username))
      else
        (request.carried.value name).map (fun value =>
          .text (submitted markup value)) := by
  have enough :
      (loginEntries markup request username password).length ≤ limit := by
    rw [loginEntries_eq names, List.length_append, List.length_map]
    exact few
  have different :
      ((request.carried.map (fun entry =>
          (entry.1, submitted markup entry.2))).map Prod.fst).Nodup := by
    rw [List.map_map]
    exact names.different
  rw [submitLogin, isFormCode_submitCode.formParams_coded,
    List.take_of_length_le enough,
    value_foldl_registerVariable (plain_loginEntries names _ _),
    loginEntries_eq names, List.reverse_append, List.lookup_append,
    lookup_reverse different, lookup_map_snd]
  have missing : Params.value [] name = none := rfl
  rw [missing, Option.or_none, List.reverse_cons, List.reverse_cons,
    List.reverse_nil, List.nil_append, List.singleton_append, lookup_cons_eq,
    lookup_cons_eq, List.lookup_nil]
  split
  next => rfl
  next =>
    split
    next => rfl
    next =>
      rw [Option.none_or, Option.map_map]
      rfl

theorem postedLogin_submitLogin
    (names : PlainNames request.carried)
    {limit : Nat} (few : request.carried.length + 2 ≤ limit)
    (username password : Bytes) :
    postedLogin (submitLogin markup limit request username password).post =
      postedLogin (typedLogin username password) := by
  have value :=
    @value_submitLogin markup request names limit few username
      password
  have different : bytes "username" ≠ bytes "password" := by decide
  rw [postedLogin, value, value, if_neg different, if_pos rfl, if_pos rfl]
  rfl

/-- The form never logs out. -/
theorem logout_submitLogin
    (names : PlainNames request.carried)
    {limit : Nat} (few : request.carried.length + 2 ≤ limit)
    (username password : Bytes) :
    (submitLogin markup limit request username password).logout = false := by
  have value :=
    @value_submitLogin markup request names limit few username
      password
      (bytes "logout")
  rw [if_neg (by decide), if_neg (by decide), carried_logout] at value
  have posted :
      (submitLogin markup limit request username password).request =
        (submitLogin markup limit request username password).post := rfl
  rw [HttpRequest.logout, Params.has, posted, value]
  rfl

end

/-! ## The login -/

section

variable {server : Server} {runtime : Runtime} {db : Db}

/-- A request without a role, outside the calls of pages, is answered with the
form and leaves the store as it is. -/
theorem index_loginForm
    {request : HttpRequest} {session : Session}
    (denied : requestRole server db request session = none)
    (noCall : request.get.has (bytes "ajax") = false) :
    (index runtime request session).exec (perform server) db = db ∧
      ((index runtime request session).eval
            (perform server) db).session.messages = some [] ∧
      ∃ alerts,
        ((index runtime request session).eval (perform server) db).reply =
          .page none alerts .login := by
  simp only [index]
  rw [Program.exec_bind, Program.eval_bind, eval_authenticate, denied,
    exec_of_reads (authenticate_reads request session) server db]
  have screen :
      ∀ messages,
        dispatch runtime request none (none, none) messages =
          pure (.page none (messages.map Alert.ofMessage) .login, []) := by
    intro messages
    rw [dispatch, noCall]
    simp only [Option.isSome_none, Bool.and_false, Bool.false_eq_true,
      if_false]
    rfl
  have prepared :
      ∀ loginName,
        prepare request session none loginName =
          pure
            ((none, none),
              deniedMessages session loginName
                (session.messages.getD [])) :=
    fun _ => rfl
  rw [prepared, Program.exec_bind, Program.eval_bind, Program.exec_bind]
  have noKit :
      ∀ messages,
        (pure ((none, none), messages) :
            Php ((Option OrderRow × Option KitRow) × List Message)).eval
              (perform server) db =
          ((none, none), messages) :=
    fun _ => rfl
  rw [noKit, screen]
  exact ⟨rfl, rfl, _, rfl⟩

/-- A request with a role that posts something without a query loads the
posted script, or nothing, and is sent back to the page without a query. -/
theorem index_posted
    {posted : HttpRequest} {session : Session} {role : Role}
    (noQuery : posted.get = []) (given : posted.post ≠ [])
    (granted : requestRole server db posted session = some role) :
    (index runtime posted session).exec (perform server) db =
        (match posted.post.value (bytes "code") with
        | none => db
        | some code =>
            (initScript (session.messages.getD []) code).exec
              (perform server) db) ∧
      ((index runtime posted session).eval (perform server) db).reply =
        .redirect (redirectLocation runtime []) := by
  have nonempty : (!posted.post.isEmpty && (some role).isSome) = true := by
    simpa using given
  have answered :
      ∀ current messages,
        dispatch runtime posted (some role) current messages =
          pure (.redirect (redirectLocation runtime []), messages) := by
    intro current messages
    have noCall : posted.get.has (bytes "ajax") = false := by
      rw [noQuery]
      rfl
    rw [dispatch, noCall, if_neg Bool.false_ne_true, if_pos nonempty, noQuery]
  simp only [index]
  rw [Program.exec_bind, Program.eval_bind, eval_authenticate, granted,
    exec_of_reads (authenticate_reads posted session) server db,
    Program.exec_bind, Program.eval_bind, answered]
  refine ⟨?_, rfl⟩
  have nothing : selectCurrent none none = pure (none, none) := rfl
  have noValue : ∀ name, Params.value [] name = none := fun _ => rfl
  have noScenario :
      Params.hasValue [] (bytes "scenario") (bytes "init") = false := rfl
  simp only [prepare, operations, noQuery, noValue, nothing, noScenario,
    Bool.false_and, Bool.false_eq_true, if_false]
  cases posted.post.value (bytes "code") with
  | none => rfl
  | some code =>
      exact
        Program.exec_bind (perform server)
          (initScript (session.messages.getD []) code)
          (fun final =>
            pure (((none, none) : Option OrderRow × Option KitRow), final))
          db

variable (server runtime)

/-- A request that is answered with the form leaves the store as it is.  The
login through the form loads the script among its parameters, posted or not,
and leaves the store as it is if there is none; then the browser is sent to
the first page.  The parameters have plain names, PHP reads two more of them,
and the script has no zero byte. -/
theorem login_resumes
    (markup : Markup) (db : Db) (session : Session) (request : HttpRequest)
    (limit : Nat) (username password : Bytes) (role : Role)
    (names : PlainNames request.request)
    (few : request.request.length + 2 ≤ limit)
    (whole : ∀ code ∈ request.carried.value (bytes "code"), 0 ∉ code.scalar)
    (noCall : request.get.has (bytes "ajax") = false)
    (denied : requestRole server db request session = none)
    (granted :
      loginRole server db (typedLogin username password) = some role) :
    (Site.step server runtime ⟨db, session⟩ request).db = db ∧
      (∃ alerts,
        ((index runtime request session).eval (perform server) db).reply =
          .page none alerts .login) ∧
      ((Site.step server runtime ⟨db, session⟩ request).step server runtime
            (submitLogin markup limit request username password)).db =
        (match request.carried.value (bytes "code") with
        | none => db
        | some code =>
            loadedStore server [] db (postedAgain markup code)) ∧
      ((index runtime (submitLogin markup limit request username password)
            (Site.step server runtime ⟨db, session⟩ request).session).eval
          (perform server) db).reply =
        .redirect (redirectLocation runtime []) := by
  obtain ⟨same, noMessages, form⟩ :=
    @index_loginForm server runtime db request session denied noCall
  have fewCarried : request.carried.length + 2 ≤ limit :=
    (Nat.add_le_add_right length_carried 2).trans few
  have value :=
    @value_submitLogin markup request names.carried limit fewCarried username
      password
  have given :
      (submitLogin markup limit request username password).post ≠ [] := by
    intro empty
    have posted := value (bytes "password")
    rw [empty, if_pos rfl] at posted
    cases posted
  have isRole :
      ∀ current,
        requestRole server db
            (submitLogin markup limit request username password) current =
          some role := by
    intro current
    rw [requestRole, logout_submitLogin names.carried fewCarried,
      if_neg Bool.false_ne_true, loginRole,
      postedLogin_submitLogin names.carried fewCarried, ← loginRole, granted]
    rfl
  obtain ⟨loaded, redirected⟩ :=
    @index_posted server runtime db
      (submitLogin markup limit request username password)
      (Site.step server runtime ⟨db, session⟩ request).session role rfl given
      (isRole _)
  refine ⟨same, form, ?_, redirected⟩
  have code := value (bytes "code")
  rw [if_neg (by decide), if_neg (by decide)] at code
  rw [code] at loaded
  have here : (Site.step server runtime ⟨db, session⟩ request).db = db := same
  have pending :
      (Site.step server runtime ⟨db, session⟩ request).session.messages =
        some [] := noMessages
  rw [Site.step, here, loaded, pending]
  cases carried : request.carried.value (bytes "code") with
  | none => rfl
  | some code =>
      simp only [Option.map_some]
      rw [submitted_eq markup (whole code carried)]
      rfl

end

/-! ## Plain texts -/

/-- The code of a special character. -/
def entityByte (byte : UInt8) : Bytes :=
  if byte = 38 then bytes "&amp;"
  else if byte = 60 then bytes "&lt;"
  else if byte = 62 then bytes "&gt;"
  else if byte = 34 then bytes "&quot;"
  else [byte]

def readEntities : Bytes → Bytes
  | 38 :: 97 :: 109 :: 112 :: 59 :: rest => 38 :: readEntities rest
  | 38 :: 108 :: 116 :: 59 :: rest => 60 :: readEntities rest
  | 38 :: 103 :: 116 :: 59 :: rest => 62 :: readEntities rest
  | 38 :: 113 :: 117 :: 111 :: 116 :: 59 :: rest => 34 :: readEntities rest
  | byte :: rest => byte :: readEntities rest
  | [] => []

theorem readEntities_cons {byte : UInt8} (plain : byte ≠ 38) (rest : Bytes) :
    readEntities (byte :: rest) = byte :: readEntities rest := by
  rw [readEntities]
  all_goals
    intros
    exact plain (by assumption)

def entityCode : SymbolCode UInt8 UInt8 where
  code := entityByte
  read := readEntities
  read_nil := rfl
  read_code := by
    intro byte rest
    simp only [entityByte]
    split
    next isAmp => rw [isAmp]; rfl
    next notAmp =>
      split
      next isLess => rw [isLess]; rfl
      next =>
        split
        next isGreater => rw [isGreater]; rfl
        next =>
          split
          next isQuote => rw [isQuote]; rfl
          next => exact readEntities_cons notAmp rest

/-- Texts of one byte for each character, of which four have codes. -/
def Markup.plain : Markup where
  valid text := text.all (fun byte => byte < 128)
  htmlentities text :=
    if text.all (fun byte => byte < 128) then entityCode.encode text else []
  readAttribute text := toLineFeeds (readEntities text)
  readAttribute_htmlentities := by
    intro text _
    split
    next => exact congrArg toLineFeeds (entityCode.read_encode text)
    next => rfl
  valid_plain := by
    intro name plain
    simp only [isPlainName, Bool.and_eq_true, List.all_eq_true] at plain ⊢
    intro byte member
    have kept := plain.2 byte member
    simp only [isAlnum, Bool.or_eq_true, Bool.and_eq_true,
      decide_eq_true_eq, beq_iff_eq, UInt8.le_iff_toNat_le,
      ← UInt8.toNat_inj] at kept
    rw [decide_eq_true_eq, UInt8.lt_iff_toNat_lt]
    simp only [UInt8.reduceToNat] at kept ⊢
    omega

/-- The URL of a script, opened by nobody. -/
def scriptLink : HttpRequest where
  get := [(bytes "code", .text (bytes "bolt<5>,7"))]
  post := []
  request := [(bytes "code", .text (bytes "bolt<5>,7"))]

theorem login_resumes_scriptLink :
    requestRole Server.plain staffed scriptLink Session.fresh = none ∧
      ((Site.step Server.plain Runtime.plain ⟨staffed, Session.fresh⟩
              scriptLink).step Server.plain Runtime.plain
            (submitLogin Markup.plain 1000 scriptLink (bytes "Bob")
              (bytes "a"))).db =
        loadedStore Server.plain [] staffed (bytes "bolt<5>,7") :=
  ⟨by decide,
    (login_resumes Server.plain Runtime.plain Markup.plain staffed
      Session.fresh scriptLink 1000 (bytes "Bob") (bytes "a")
      ⟨1, bytes "Bob"⟩ ⟨by decide, by decide⟩ (by decide) (by decide)
      (by decide) (by decide) (by decide)).2.2.1⟩

end LtlsKitting.Web
