import LtlsKitting.Cabinet.Strip
import LtlsKitting.Web.Index

/-!
# From a call of the page to the strip

A page asks for lights by a URL.  The server decodes the query, replaces the
hyphens of the locations by blanks and runs a command, whose words the shell
passes to `led.py`.  Locations of plain characters come through unchanged.
-/

namespace LtlsKitting.Cabinet

open LtlsKitting.Php LtlsKitting.Store LtlsKitting.Operations
open LtlsKitting.Interaction LtlsKitting.Web

/-! ## URLs -/

def hexValue (byte : UInt8) : Option UInt8 :=
  if 48 ≤ byte ∧ byte ≤ 57 then
    some (byte - 48)
  else if 65 ≤ byte ∧ byte ≤ 70 then
    some (byte - 55)
  else if 97 ≤ byte ∧ byte ≤ 102 then
    some (byte - 87)
  else
    none

def urldecode : Bytes → Bytes
  | [] => []
  | 43 :: rest => 32 :: urldecode rest
  | 37 :: high :: low :: rest =>
      match hexValue high, hexValue low with
      | some first, some second => (16 * first + second) :: urldecode rest
      | _, _ => 37 :: urldecode (high :: low :: rest)
  | byte :: rest => byte :: urldecode rest

/-- A field `name=value` of a query. -/
def queryField (field : Bytes) : Bytes × Param :=
  (urldecode (field.takeWhile (fun byte => byte != 61)),
    .text (urldecode ((field.dropWhile (fun byte => byte != 61)).drop 1)))

/-- The parameters of a query whose names are different and are not those of
arrays. -/
def queryParams (query : Bytes) : Params :=
  (explode 38 query).map queryField

/-! ## Calls of the page -/

/-- A post without data. -/
def cabinetRequest (query : Bytes) : HttpRequest where
  get := queryParams query
  post := []
  request := queryParams query

/-- The call of a page that is opened. -/
def initCall : HttpRequest :=
  cabinetRequest (bytes "ajax=1&cabinet=1&state=3")

/-- `toggleLED( 1,loc )` -/
def toggleCall (loc : Bytes) : HttpRequest :=
  cabinetRequest (bytes "ajax=1&cabinet=1&state=1&location=" ++ loc)

/-! ## Commands -/

def isBlank (byte : UInt8) : Bool :=
  byte == 9 || byte == 10 || byte == 32

/-- The words of a command without special characters. -/
def shellWords (command : Bytes) : List Bytes :=
  (command.splitOnP isBlank).filter (fun word => !word.isEmpty)

/-- The strip after a command. -/
def runShell (strip : Strip) (command : Bytes) : Strip :=
  match shellWords command with
  | program :: argv =>
      if program = bytes "python" ∧
          argv.head? = some (bytes "scripts/led.py") then
        leftStrip (opr2 strip argv)
      else
        strip
  | [] => strip

def shellCommand : Effect → Option Bytes
  | .shell command => some command
  | _ => none

/-- The strip after the server has executed a request. -/
def executeCall
    (server : Server) (runtime : Runtime) (db : Db) (session : Session)
    (strip : Strip) (request : HttpRequest) : Strip :=
  (((index runtime request session).trace (perform server) db).filterMap
    shellCommand).foldl runShell strip

/-! ## Commands of a request -/

section

variable {server : Server} {runtime : Runtime} {db : Db} {session : Session}

theorem shellCommand_reads {α : Type} {program : Php α}
    (reads : program.Issues (fun effect => effect.reads = true)) (db : Db) :
    (program.trace (perform server) db).filterMap shellCommand = [] := by
  rw [List.filterMap_eq_nil_iff]
  intro effect member
  have isRead := reads.trace (perform server) db effect member
  cases effect <;> first | rfl | cases isRead

theorem prepare_reads (request : HttpRequest) (session : Session)
    (role : Option Role) (loginName : Bool)
    (noCode : request.post.value (bytes "code") = none) :
    (prepare request session role loginName).Issues
      (fun effect => effect.reads = true) := by
  cases role with
  | none =>
      exact Program.issues_pure _ _
  | some current =>
      simp only [prepare, operations, noCode]
      exact
        Program.issues_bind (selectCurrent_reads _ _)
          (fun _ => Program.issues_pure _ _)

/-- A call for the cabinet runs one command, whoever sends it. -/
theorem executeCall_cabinet {request : HttpRequest}
    (noCode : request.post.value (bytes "code") = none)
    (isAjax : request.get.has (bytes "ajax") = true)
    (noPrint : request.get.value (bytes "print") = none)
    (isCabinet : request.get.has (bytes "cabinet") = true) (strip : Strip) :
    executeCall server runtime db session strip request =
      runShell strip (ledCommand request.get) := by
  obtain ⟨loginName, current, messages, trace⟩ :=
    trace_index server db runtime request session
  have dispatched :
      ∀ role state,
        (dispatch runtime request role current messages).trace
            (perform server) state =
          [.shell (ledCommand request.get)] := by
    intro role state
    simp only [dispatch, isAjax, ajax, noPrint, isCabinet, if_true]
    rfl
  rw [executeCall, trace, List.filterMap_append, List.filterMap_append,
    shellCommand_reads (authenticate_reads request session),
    shellCommand_reads (prepare_reads request session _ loginName noCode),
    dispatched]
  rfl

end

/-! ## Plain locations -/

/-- A character that means nothing in a URL or to the shell, and that does not
separate locations. -/
def isPlain (byte : UInt8) : Bool :=
  isAlnum byte || (bytes ",./:@_").contains byte

/-- The location is empty, or names a cell with plain characters. -/
def GoodLocation (location : Bytes) : Prop :=
  location = [] ∨
    (location.all isPlain = true ∧ (parsePosition location).isSome = true)

instance (location : Bytes) : Decidable (GoodLocation location) :=
  inferInstanceAs
    (Decidable
      (location = [] ∨
        (location.all isPlain = true ∧
          (parsePosition location).isSome = true)))

/-- The locations, each followed by a hyphen. -/
def hyphenated (locations : List Bytes) : Bytes :=
  locations.flatMap (fun location => location ++ [45])

theorem isPlain_ne {byte : UInt8} (plain : isPlain byte = true) :
    byte ≠ 9 ∧ byte ≠ 10 ∧ byte ≠ 32 ∧ byte ≠ 37 ∧ byte ≠ 38 ∧ byte ≠ 43 ∧
      byte ≠ 45 := by
  refine ⟨?_, ?_, ?_, ?_, ?_, ?_, ?_⟩ <;>
    (rintro rfl; exact absurd plain (by decide))

theorem GoodLocation.plain {location : Bytes}
    (good : GoodLocation location) :
    ∀ byte ∈ location, isPlain byte = true := by
  rcases good with rfl | ⟨plain, _⟩
  · intro byte member
    cases member
  · exact List.all_eq_true.mp plain

theorem urldecode_plain {text : Bytes}
    (plain : ∀ byte ∈ text, byte ≠ 37 ∧ byte ≠ 43) :
    urldecode text = text := by
  induction text with
  | nil =>
      rfl
  | cons byte rest inductionHypothesis =>
      obtain ⟨noPercent, noPlus⟩ := plain byte (List.mem_cons_self ..)
      have later :=
        inductionHypothesis
          (fun other member => plain other (List.mem_cons_of_mem _ member))
      rw [urldecode, later]
      · exact noPlus
      · intro high low more percent
        exact absurd percent noPercent

/-- The bytes of hyphenated locations. -/
theorem mem_hyphenated {locations : List Bytes}
    (good : ∀ location ∈ locations, GoodLocation location)
    {byte : UInt8} (member : byte ∈ hyphenated locations) :
    byte ≠ 37 ∧ byte ≠ 38 ∧ byte ≠ 43 := by
  obtain ⟨location, isLocation, inside⟩ := List.mem_flatMap.mp member
  rcases List.mem_append.mp inside with here | hyphen
  · have plain := isPlain_ne ((good location isLocation).plain byte here)
    exact ⟨plain.2.2.2.1, plain.2.2.2.2.1, plain.2.2.2.2.2.1⟩
  · rw [List.mem_singleton.mp hyphen]
    decide

/-- The parameters that the server sees. -/
def toggleParams (loc : Bytes) : Params :=
  [(bytes "ajax", .text (bytes "1")), (bytes "cabinet", .text (bytes "1")),
    (bytes "state", .text (bytes "1")), (bytes "location", .text loc)]

theorem get_toggleCall {loc : Bytes}
    (plain : ∀ byte ∈ loc, byte ≠ 37 ∧ byte ≠ 38 ∧ byte ≠ 43) :
    (toggleCall loc).get = toggleParams loc := by
  have whole : (38 : UInt8) ∉ loc := fun member => (plain 38 member).2.1 rfl
  have decoded : urldecode loc = loc :=
    urldecode_plain
      (fun byte member => ⟨(plain byte member).1, (plain byte member).2.2⟩)
  obtain ⟨fields, last, split, splitLonger⟩ :=
    explode_append 38 whole (bytes "ajax=1&cabinet=1&state=1&location=")
  have literal :
      explode 38 (bytes "ajax=1&cabinet=1&state=1&location=") =
        [bytes "ajax=1", bytes "cabinet=1", bytes "state=1"] ++
          [bytes "location="] := by
    decide
  obtain ⟨sameFields, sameLast⟩ :=
    List.append_inj' (split.symm.trans literal) rfl
  have location :
      queryField (bytes "location=" ++ loc) =
        (bytes "location", .text loc) := by
    have name : bytes "location=" = bytes "location" ++ [61] := by
      decide
    have noEquals : ∀ byte ∈ bytes "location", (byte != 61) = true := by
      rw [← List.all_eq_true]
      decide
    have decodedName : urldecode (bytes "location") = bytes "location" := by
      decide
    rw [queryField, name, List.append_assoc,
      List.takeWhile_append_of_pos noEquals,
      List.dropWhile_append_of_pos noEquals]
    simp [decoded, decodedName]
  simp only [toggleCall, cabinetRequest, queryParams]
  rw [splitLonger, sameFields, List.singleton_inj.mp sameLast]
  simp only [List.map_append, List.map_cons, List.map_nil, location]
  rfl

/-- The blanks separate the locations again. -/
theorem shellWords_hyphenated {locations : List Bytes}
    (good : ∀ location ∈ locations, GoodLocation location) :
    ((hyphenated locations).map
        (fun byte => if byte == 45 then 32 else byte)).splitOnP isBlank =
      locations ++ [[]] := by
  induction locations with
  | nil =>
      rfl
  | cons location rest inductionHypothesis =>
      have plain := (good location (List.mem_cons_self ..)).plain
      have later :=
        inductionHypothesis
          (fun other member => good other (List.mem_cons_of_mem _ member))
      have kept :
          location.map (fun byte => if byte == 45 then 32 else byte) =
            location := by
        rw [List.map_congr_left (fun byte member => by
          rw [if_neg]
          simpa using (isPlain_ne (plain byte member)).2.2.2.2.2.2),
          List.map_id']
      have noBlank : ∀ byte ∈ location, isBlank byte = false := by
        intro byte member
        have different := isPlain_ne (plain byte member)
        simp [isBlank, different.1, different.2.1, different.2.2.1]
      rw [hyphenated, List.flatMap_cons, List.map_append, List.map_append,
        kept, List.append_assoc]
      exact
        (List.splitOnP_append_cons_of_forall_mem noBlank 32 rfl _).trans
          (congrArg (List.cons location) later)

theorem ledCommand_toggleParams (loc : Bytes) :
    ledCommand (toggleParams loc) =
      bytes "python scripts/led.py 1" ++
        32 :: loc.map (fun byte => if byte == 45 then 32 else byte) := by
  have command :
      bytes "python scripts/led.py " ++ bytes "1" ++ bytes " " =
        bytes "python scripts/led.py 1" ++ [32] := by
    decide
  have value :
      (toggleParams loc).value (bytes "location") = some (.text loc) := rfl
  have state :
      (toggleParams loc).value (bytes "state") =
        some (.text (bytes "1")) := rfl
  rw [ledCommand, value, state]
  simp only [Option.getD_some, Param.spliced, locationText]
  rw [command, List.append_assoc, List.singleton_append]

theorem runShell_toggle (strip : Strip) {locations : List Bytes}
    (good : ∀ location ∈ locations, GoodLocation location) :
    runShell strip (ledCommand (toggleParams (hyphenated locations))) =
      leftStrip
        (opr2 strip
          (bytes "scripts/led.py" :: bytes "1" ::
            locations.filter (fun location => !location.isEmpty))) := by
  have front :
      (bytes "python scripts/led.py 1").splitOnP isBlank =
        [bytes "python", bytes "scripts/led.py", bytes "1"] := by
    decide
  have frontKept :
      [bytes "python", bytes "scripts/led.py", bytes "1"].filter
          (fun word => !word.isEmpty) =
        [bytes "python", bytes "scripts/led.py", bytes "1"] := by
    decide
  have words :
      shellWords (ledCommand (toggleParams (hyphenated locations))) =
        bytes "python" :: bytes "scripts/led.py" :: bytes "1" ::
          locations.filter (fun location => !location.isEmpty) := by
    rw [shellWords, ledCommand_toggleParams,
      List.splitOnP_append_cons _ _ (by decide), front,
      shellWords_hyphenated good, List.filter_append, List.filter_append,
      frontKept]
    simp
  rw [runShell, words]
  rfl

section

variable {server : Server} {runtime : Runtime} {db : Db} {session : Session}

/-- The call of an opened page turns the strip off. -/
theorem executeCall_init (strip : Strip) {led : Nat} (onStrip : led < 200) :
    executeCall server runtime db session strip initCall led =
      shown [] led := by
  have executed :=
    @executeCall_cabinet server runtime db session initCall rfl (by decide)
      (by decide) (by decide) strip
  have words :
      shellWords (ledCommand initCall.get) =
        [bytes "python", bytes "scripts/led.py", bytes "3"] := by
    decide
  rw [executed, runShell, words]
  exact opr2_off strip onStrip

/-- The call of a tick shows the locations it was given. -/
theorem executeCall_toggle (strip : Strip) {locations : List Bytes}
    (good : ∀ location ∈ locations, GoodLocation location)
    {led : Nat} (onStrip : led < 200) :
    executeCall server runtime db session strip
        (toggleCall (hyphenated locations)) led =
      shown locations led := by
  have get :
      (toggleCall (hyphenated locations)).get =
        toggleParams (hyphenated locations) :=
    get_toggleCall (fun byte member => mem_hyphenated good member)
  have executed :=
    @executeCall_cabinet server runtime db session
      (toggleCall (hyphenated locations)) rfl (by rw [get]; rfl)
      (by rw [get]; rfl) (by rw [get]; rfl) strip
  have named :
      ∀ position ∈ locations.filter (fun location => !location.isEmpty),
        (parsePosition position).isSome = true := by
    intro position member
    obtain ⟨known, nonempty⟩ := List.mem_filter.mp member
    rcases good position known with rfl | ⟨_, isCell⟩
    · cases nonempty
    · exact isCell
  rw [executed, get, runShell_toggle strip good, opr2_lit strip named onStrip,
    shown_filter]

end

end LtlsKitting.Cabinet
