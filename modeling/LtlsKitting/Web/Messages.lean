import LtlsKitting.Operations.Loading
import LtlsKitting.Web.Credentials

/-!
# Messages to the user

Messages are appended to a list that the session carries from one request to
the next, until a page shows the list and clears it.  The text of a message is
its last component, and a page shows the second one.  Both are the same for
the message of a failed login, and they differ for the messages of
`operations.php`, which consist of two colours and a text.
-/

namespace LtlsKitting.Web

open LtlsKitting.Php LtlsKitting.Store LtlsKitting.Operations
open LtlsKitting.Interaction

def messageText (message : Message) : Option Bytes :=
  message.getLast?

/-- The texts of the messages on a page. -/
def shownTexts : Reply → Option (List (Option Bytes))
  | .page _ alerts _ => some (alerts.map Alert.text)
  | _ => none

/-- The messages that the session has when a request begins. -/
def Session.pending (session : Session) : List Message :=
  session.messages.getD []

/-- The messages when the reply of a request begins. -/
def Site.prepared
    (server : Server) (site : Site) (request : HttpRequest) : List Message :=
  ((prepare request site.session
      (requestRole server site.db request site.session)
      ((authenticate request site.session).eval (perform server)
        site.db).2).eval (perform server) site.db).2

/-- The messages that a request appends. -/
def Site.appended
    (server : Server) (site : Site) (request : HttpRequest) : List Message :=
  (site.prepared server request).drop site.session.pending.length

/-- What a request appends, and what its page shows. -/
def Site.showing
    (server : Server) (runtime : Runtime) (site : Site)
    (request : HttpRequest) : Showing (Option Bytes) where
  collected := (site.appended server request).map messageText
  shown :=
    shownTexts
      ((index runtime request site.session).eval
        (perform server) site.db).reply

/-- The requests of a session, one after the other. -/
def Site.showings (server : Server) (runtime : Runtime) :
    Site → List HttpRequest → List (Showing (Option Bytes))
  | _, [] => []
  | site, request :: rest =>
      site.showing server runtime request ::
        Site.showings server runtime (site.step server runtime request) rest

/-! ## Requests that append no text behind two colours -/

/-- The line is neither a comment nor the header of an order. -/
def silentLine (line : Bytes) : Bool :=
  !isComment line && sectionHeader line != some (bytes "ORDER")

/-- The request has no role, or it neither asks for the initialisation
without being the administrator nor posts a script with a comment or an
order. -/
def silentRequest
    (server : Server) (site : Site) (request : HttpRequest) : Bool :=
  match requestRole server site.db request site.session with
  | none => true
  | some role =>
      (role.isAdmin ||
          !request.get.hasValue (bytes "scenario") (bytes "init")) &&
        (request.post.value (bytes "code")).all
          (fun code => (codeLines code).all silentLine)

theorem searchMode_order {name : Bytes}
    (found : modeIs (searchMode name) .order = true) :
    name = bytes "ORDER" := by
  have isOrder : searchMode name = some .order := by
    revert found
    cases searchMode name with
    | none => decide
    | some mode => cases mode <;> decide
  obtain ⟨first, last, isList, _⟩ := List.lookup_eq_some_iff.mp isOrder
  have member : (name, Mode.order) ∈ first ++ (name, Mode.order) :: last :=
    List.mem_append_right _ (List.mem_cons_self ..)
  rw [← isList] at member
  simpa using member

/-- A line appends messages; a silent line appends none. -/
theorem messages_lineState (db : Db) (state : LoopState) (line : Bytes) :
    ∃ new,
      (lineState db state line).messages = state.messages ++ new ∧
        (silentLine line = true → new = []) := by
  simp only [lineState]
  by_cases comment : isComment line = true
  · rw [if_pos comment]
    refine ⟨_, rfl, ?_⟩
    intro silent
    simp [silentLine, comment] at silent
  · rw [if_neg comment]
    have unchanged :
        ∃ new, state.messages = state.messages ++ new ∧
          (silentLine line = true → new = []) :=
      ⟨[], (List.append_nil _).symm, fun _ => rfl⟩
    by_cases header : isHeader line = true
    · rw [if_pos header]
      cases named : sectionHeader line with
      | none =>
          exact unchanged
      | some name =>
          dsimp only
          simp only [headerState]
          by_cases order : modeIs (searchMode name) .order = true
          · rw [if_pos order]
            refine ⟨_, rfl, ?_⟩
            intro silent
            simp [silentLine, named, searchMode_order order] at silent
          · rw [if_neg order]
            split
            · split <;> exact unchanged
            · exact unchanged
    · rw [if_neg header]
      exact unchanged

theorem messages_lines
    (server : Server) (current : LoopState × Db) (lines : List Bytes) :
    ∃ new,
      (runActions (lineStep server) current lines).1.messages =
          current.1.messages ++ new ∧
        (lines.all silentLine = true → new = []) := by
  induction lines generalizing current with
  | nil =>
      exact ⟨[], (List.append_nil _).symm, fun _ => rfl⟩
  | cons line rest inductionHypothesis =>
      obtain ⟨first, said, silentFirst⟩ :=
        messages_lineState current.2 current.1 line
      obtain ⟨later, saidLater, silentLater⟩ :=
        inductionHypothesis (lineStep server current line)
      refine ⟨first ++ later, ?_, ?_⟩
      · rw [runActions_cons, saidLater, ← List.append_assoc, ← said]
        rfl
      · intro silent
        rw [List.all_cons, Bool.and_eq_true] at silent
        rw [silentFirst silent.1, silentLater silent.2]
        rfl

theorem messages_operations
    (server : Server) (db : Db) (role : Role) (request : HttpRequest)
    (messages : List Message) :
    ∃ new,
      ((operations role request messages).eval (perform server) db).2 =
          messages ++ new ∧
        ((role.isAdmin ||
                !request.get.hasValue (bytes "scenario") (bytes "init")) =
              true →
          (request.post.value (bytes "code")).all
              (fun code => (codeLines code).all silentLine) =
            true →
          new = []) := by
  obtain ⟨warning, isWarned, quiet⟩ :
      ∃ warning : List Message,
        (if request.get.hasValue (bytes "scenario") (bytes "init") &&
              !role.isAdmin then
            messages ++
              [[bytes "yellow", bytes "red",
                bytes "Nur Administrator kann die Datenbank zurücksetzen!"]]
          else
            messages) =
            messages ++ warning ∧
          ((role.isAdmin ||
                !request.get.hasValue (bytes "scenario") (bytes "init")) =
              true →
            warning = []) := by
    split
    next warned =>
      refine ⟨_, rfl, ?_⟩
      intro allowed
      rw [Bool.and_eq_true, Bool.not_eq_true'] at warned
      rw [warned.1, warned.2] at allowed
      cases allowed
    next =>
      exact ⟨[], (List.append_nil _).symm, fun _ => rfl⟩
  simp only [operations]
  rw [Program.eval_bind, isWarned]
  cases posted : request.post.value (bytes "code") with
  | none =>
      exact ⟨warning, rfl, fun allowed _ => quiet allowed⟩
  | some code =>
      dsimp only
      rw [Program.eval_bind, eval_initScript]
      obtain ⟨said, isSaid, silent⟩ := messages_lines server _ _
      refine ⟨warning ++ said, ?_, ?_⟩
      · rw [← List.append_assoc]
        exact isSaid
      · intro allowed silentCode
        rw [quiet allowed, silent silentCode]
        rfl

/-! ## Sessions -/

/-- A page shows the text of the message. -/
def Readable (message : Message) : Prop :=
  message[1]? = messageText message

theorem prepared_messages
    (server : Server) (site : Site) (request : HttpRequest) :
    ∃ new,
      site.prepared server request = site.session.pending ++ new ∧
        (silentRequest server site request = true →
          ∀ message ∈ new, Readable message) := by
  simp only [Site.prepared, silentRequest]
  cases requestRole server site.db request site.session with
  | none =>
      simp only [prepare]
      change
        ∃ new,
          deniedMessages site.session _ site.session.pending =
              site.session.pending ++ new ∧ _
      simp only [deniedMessages]
      split
      · refine ⟨_, rfl, ?_⟩
        intro _ message member
        rw [List.mem_singleton.mp member]
        rfl
      · refine ⟨[], (List.append_nil _).symm, ?_⟩
        intro _ message impossible
        cases impossible
  | some role =>
      obtain ⟨new, isNew, silent⟩ :=
        messages_operations server site.db role request site.session.pending
      refine ⟨new, isNew, ?_⟩
      intro allowed message member
      rw [Bool.and_eq_true] at allowed
      rw [silent allowed.1 allowed.2] at member
      cases member

theorem prepared_eq
    (server : Server) (site : Site) (request : HttpRequest) :
    site.prepared server request =
      site.session.pending ++ site.appended server request := by
  obtain ⟨new, isNew, _⟩ := prepared_messages server site request
  rw [Site.appended, isNew, List.drop_left]

theorem appended_readable
    {server : Server} {site : Site} {request : HttpRequest}
    (silent : silentRequest server site request = true) :
    ∀ message ∈ site.appended server request, Readable message := by
  obtain ⟨new, isNew, readable⟩ := prepared_messages server site request
  rw [Site.appended, isNew, List.drop_left]
  exact readable silent

theorem shownTexts_ajax
    (server : Server) (runtime : Runtime) (db : Db) (request : HttpRequest)
    (order : Option OrderRow) (kit : Option KitRow) :
    shownTexts
        ((ajax runtime request order kit).eval (perform server) db) =
      none := by
  simp only [ajax]
  split
  · rfl
  · split
    · rfl
    · split
      · rw [Program.eval_bind]
        rfl
      · rfl

/-- A reply either shows all messages and leaves none, or it shows none and
leaves all. -/
theorem eval_dispatch
    (server : Server) (runtime : Runtime) (db : Db) (request : HttpRequest)
    (role : Option Role) (current : Option OrderRow × Option KitRow)
    (messages : List Message) :
    (∃ userinfo content,
        (dispatch runtime request role current messages).eval
            (perform server) db =
          (.page userinfo (messages.map Alert.ofMessage) content, [])) ∨
      ∃ reply,
        (dispatch runtime request role current messages).eval
            (perform server) db = (reply, messages) ∧
          shownTexts reply = none := by
  simp only [dispatch]
  split
  · right
    rw [Program.eval_bind]
    exact ⟨_, rfl, shownTexts_ajax server runtime db request _ _⟩
  · split
    · exact Or.inr ⟨_, rfl, rfl⟩
    · left
      rw [Program.eval_bind]
      simp only [display]
      rw [Program.eval_bind]
      exact ⟨_, _, rfl⟩

theorem outcome_index
    (server : Server) (runtime : Runtime) (site : Site)
    (request : HttpRequest) :
    ∃ db current,
      ((index runtime request site.session).eval
            (perform server) site.db).reply =
          ((dispatch runtime request
              (requestRole server site.db request site.session) current
              (site.prepared server request)).eval (perform server) db).1 ∧
        (site.step server runtime request).session.pending =
          ((dispatch runtime request
              (requestRole server site.db request site.session) current
              (site.prepared server request)).eval (perform server) db).2 := by
  simp only [Site.step, index]
  rw [Program.eval_bind, Program.eval_bind, Program.eval_bind,
    eval_authenticate,
    exec_of_reads (authenticate_reads request site.session) server site.db]
  exact ⟨_, _, rfl, rfl⟩

/-- A request shows the second components of all messages and leaves none, or
it shows nothing and leaves all messages. -/
theorem showing_step
    (server : Server) (runtime : Runtime) (site : Site)
    (request : HttpRequest) :
    ((site.showing server runtime request).shown =
          some
            ((site.prepared server request).map
              (fun message => message[1]?)) ∧
        (site.step server runtime request).session.pending = []) ∨
      ((site.showing server runtime request).shown = none ∧
        (site.step server runtime request).session.pending =
          site.prepared server request) := by
  obtain ⟨db, current, isReply, isPending⟩ :=
    outcome_index server runtime site request
  rw [Site.showing, isReply, isPending]
  rcases eval_dispatch server runtime db request
      (requestRole server site.db request site.session) current
      (site.prepared server request) with
    ⟨userinfo, content, answered⟩ | ⟨reply, answered, silent⟩
  · left
    rw [answered]
    refine ⟨?_, rfl⟩
    simp only [shownTexts, List.map_map]
    rfl
  · right
    rw [answered]
    exact ⟨silent, rfl⟩

/-- From a session whose messages can be read, silent requests show every text
once. -/
theorem showings_once
    (server : Server) (runtime : Runtime) (site : Site)
    (requests : List HttpRequest)
    (readable : ∀ message ∈ site.session.pending, Readable message)
    (silent :
      EveryStep (Site.step server runtime)
        (fun current request =>
          silentRequest server current request = true)
        site requests) :
    ShowsOnce (site.session.pending.map messageText)
        (site.showings server runtime requests) ∧
      leftOver (site.session.pending.map messageText)
          (site.showings server runtime requests) =
        (runActions (Site.step server runtime) site
          requests).session.pending.map messageText := by
  have nothing : ∀ message ∈ ([] : List Message), Readable message := by
    intro message impossible
    cases impossible
  induction requests generalizing site with
  | nil =>
      exact ⟨trivial, rfl⟩
  | cons request rest inductionHypothesis =>
      obtain ⟨first, later⟩ := silent
      have allReadable :
          ∀ message ∈ site.prepared server request, Readable message := by
        rw [prepared_eq]
        intro message member
        rcases List.mem_append.mp member with old | new
        · exact readable message old
        · exact appended_readable first message new
      have texts :
          (site.prepared server request).map messageText =
            site.session.pending.map messageText ++
              (site.showing server runtime request).collected := by
        rw [prepared_eq, List.map_append]
        rfl
      simp only [Site.showings, ShowsOnce, leftOver, runActions_cons]
      rcases showing_step server runtime site request with
        ⟨shows, empty⟩ | ⟨hides, kept⟩
      · have following :=
          inductionHypothesis (site.step server runtime request)
            (by rw [empty]; exact nothing)
            later
        rw [empty, List.map_nil] at following
        rw [shows]
        refine ⟨⟨?_, following.1⟩, following.2⟩
        rw [← texts]
        exact List.map_congr_left allReadable
      · have following :=
          inductionHypothesis (site.step server runtime request)
            (by rw [kept]; exact allReadable) later
        rw [kept, texts] at following
        rw [hides]
        exact following

/-- In every session of silent requests, the text of every message is shown
on the first page from its request on, in the order in which the messages were
appended: what the pages have shown, followed by what is still pending, is
what was appended. -/
theorem every_message_shown_once
    (server : Server) (runtime : Runtime) (db : Db)
    (requests : List HttpRequest)
    (silent :
      EveryStep (Site.step server runtime)
        (fun current request =>
          silentRequest server current request = true)
        ⟨db, Session.fresh⟩ requests) :
    ShowsOnce []
        (Site.showings server runtime ⟨db, Session.fresh⟩ requests) ∧
      (Site.showings server runtime ⟨db, Session.fresh⟩ requests).flatMap
            (fun step => step.shown.getD []) ++
          (runActions (Site.step server runtime) ⟨db, Session.fresh⟩
            requests).session.pending.map messageText =
        (Site.showings server runtime ⟨db, Session.fresh⟩
          requests).flatMap Showing.collected := by
  have nothing : ∀ message ∈ Session.fresh.pending, Readable message := by
    intro message impossible
    cases impossible
  obtain ⟨once, left⟩ :=
    showings_once server runtime ⟨db, Session.fresh⟩ requests nothing silent
  refine ⟨once, ?_⟩
  rw [← left]
  exact once.flatMap_shown

/-- A login with an unknown password, sent as a call of a page. -/
def failedLogin : HttpRequest :=
  { loginRequest (bytes "Bob") (bytes "c") with
    get := [(bytes "ajax", .text (bytes "1"))] }

def startView : HttpRequest where
  get := []
  post := []
  request := []

/-- The message of a failed login is shown on the next page. -/
theorem every_message_shown_once_failedLogin :
    ShowsOnce []
        (Site.showings Server.plain Runtime.plain ⟨staffed, Session.fresh⟩
          [failedLogin, startView]) ∧
      Site.showings Server.plain Runtime.plain ⟨staffed, Session.fresh⟩
          [failedLogin, startView] =
        [⟨[some
            (bytes
              "Authentifikation gescheitert! Versuch wurde protokolliert.")],
            none⟩,
          ⟨[],
            some
              [some
                (bytes
                  "Authentifikation gescheitert! Versuch wurde protokolliert.")]⟩] := by
  have silent :
      EveryStep (Site.step Server.plain Runtime.plain)
        (fun current request =>
          silentRequest Server.plain current request = true)
        ⟨staffed, Session.fresh⟩ [failedLogin, startView] := by
    decide +kernel
  refine
    ⟨(every_message_shown_once Server.plain Runtime.plain staffed
      [failedLogin, startView] silent).1, ?_⟩
  decide +kernel

/-- The view of the initialisation. -/
def initView : HttpRequest where
  get := [(bytes "scenario", .text (bytes "init"))]
  post := []
  request := []

/-- A user who is not the administrator asks for the initialisation, and the
refusal is shown as its second colour. -/
theorem init_refusal_not_shown :
    ¬ ShowsOnce []
      (Site.showings Server.plain Runtime.plain ⟨staffed, Session.fresh⟩
        [loginRequest (bytes "Bob") (bytes "a"), initView]) := by
  have pages :
      Site.showings Server.plain Runtime.plain ⟨staffed, Session.fresh⟩
          [loginRequest (bytes "Bob") (bytes "a"), initView] =
        [⟨[], none⟩,
          ⟨[some
              (bytes
                "Nur Administrator kann die Datenbank zurücksetzen!")],
            some [some (bytes "red")]⟩] := by
    decide +kernel
  rw [pages]
  rintro ⟨isText, _⟩
  revert isText
  decide +kernel

end LtlsKitting.Web
