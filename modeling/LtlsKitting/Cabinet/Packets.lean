import LtlsKitting.Bindings.Handshake
import LtlsKitting.Cabinet.Strip

/-!
# The lights on the wire

The script does not set lights; it makes calls of `set_rgb_values`, and each
call is a packet for the strip.  The calls of the script are those that its
strip is the result of, all of them fit in packets, and the strip that gets the
packets of a run ends up as the script says.
-/

namespace LtlsKitting.Cabinet

open LtlsKitting.Php LtlsKitting.Formats LtlsKitting.Interaction
open LtlsKitting.Bindings

/-- The arguments of `set_rgb_values`. -/
structure RgbCall where
  index : Nat
  length : Nat
  r : List UInt8
  g : List UInt8
  b : List UInt8
  deriving DecidableEq

def RgbCall.apply (strip : Strip) (call : RgbCall) : Strip :=
  setRgbValues strip call.index call.length call.r call.g call.b

/-! ## The calls of the script -/

def turnoffCalls : List RgbCall :=
  (List.range 20).map
    (fun i => ⟨i * 10, 10, sixteen 0, sixteen 0, sixteen 0⟩)

/-- The calls of `toggleLED`; `none` is an exception before any call. -/
def toggleLEDCalls (state : Int) (position : Option Bytes) :
    Option (List RgbCall) :=
  match position.filter (fun text => !text.isEmpty) with
  | none => some turnoffCalls
  | some text =>
      match parsePosition text with
      | none => none
      | some led =>
          if state = 3 then
            some turnoffCalls
          else if state ≠ 0 then
            some [⟨led, 4, sixteen 0, sixteen 255, sixteen 0⟩]
          else
            some [⟨led, 4, sixteen 0, sixteen 0, sixteen 0⟩]

/-- The calls of the loop over the positions, up to an exception. -/
def positionCalls (state : Int) : List Bytes → List RgbCall
  | [] => []
  | position :: rest =>
      match toggleLEDCalls state (some position) with
      | none => []
      | some calls => calls ++ positionCalls state rest

def opr2Calls (argv : List Bytes) : List RgbCall :=
  match (argv[1]?).bind pythonInt with
  | none => []
  | some state => turnoffCalls ++ positionCalls state (argv.drop 2)

theorem foldl_turnoffCalls (strip : Strip) :
    turnoffCalls.foldl RgbCall.apply strip = turnoff strip :=
  List.foldl_map

theorem toggleLED_calls
    (strip : Strip) (state : Int) (position : Option Bytes) :
    toggleLED strip state position =
      match toggleLEDCalls state position with
      | none => .error strip
      | some calls => .ok (calls.foldl RgbCall.apply strip) := by
  simp only [toggleLED, toggleLEDCalls]
  cases position.filter (fun text => !text.isEmpty) with
  | none => exact congrArg Except.ok (foldl_turnoffCalls strip).symm
  | some text =>
      dsimp only
      cases parsePosition text with
      | none => rfl
      | some led =>
          by_cases off : state = 3
          · simp only [off, if_true]
            exact congrArg Except.ok (foldl_turnoffCalls strip).symm
          · by_cases lit : state ≠ 0
            · simp only [if_neg off, if_pos lit]
              rfl
            · simp only [if_neg off, if_neg lit]
              rfl

theorem leftStrip_positions
    (strip : Strip) (state : Int) (positions : List Bytes) :
    leftStrip
        (positions.foldlM
          (fun current position => toggleLED current state (some position))
          strip) =
      (positionCalls state positions).foldl RgbCall.apply strip := by
  induction positions generalizing strip with
  | nil => rfl
  | cons position rest inductionHypothesis =>
      rw [List.foldlM_cons, positionCalls, toggleLED_calls]
      cases toggleLEDCalls state (some position) with
      | none => rfl
      | some calls =>
          dsimp only
          rw [List.foldl_append, ← inductionHypothesis]
          rfl

/-- The strip that the script leaves is the result of its calls. -/
theorem leftStrip_opr2 (strip : Strip) (argv : List Bytes) :
    leftStrip (opr2 strip argv) =
      (opr2Calls argv).foldl RgbCall.apply strip := by
  simp only [opr2, opr2Calls]
  cases (argv[1]?).bind pythonInt with
  | none => rfl
  | some state =>
      dsimp only
      rw [List.foldl_append, foldl_turnoffCalls, ← leftStrip_positions]
      rfl

/-! ## Packets of the strip -/

/-- `LEDStrip( "oV7",ipcon )` -/
def ledStripUid : Nat := 77088

def functionSetRgbValues : Nat := 1

/-- `H B 16B 16B 16B` -/
def rgbLayout : Layout :=
  [⟨1, 2⟩, ⟨1, 1⟩, ⟨16, 1⟩, ⟨16, 1⟩, ⟨16, 1⟩]

/-- The call as the bindings send it; no response is expected. -/
def RgbCall.toCall (call : RgbCall) : Call where
  uid := ledStripUid
  functionId := functionSetRgbValues
  responseExpected := false
  form := rgbLayout
  data :=
    [[call.index], [call.length], call.r.map UInt8.toNat,
      call.g.map UInt8.toNat, call.b.map UInt8.toNat]

/-- The strip executes the packets for it; other packets leave it as it is. -/
def executePacket (strip : Strip) (packet : Bytes) : Strip :=
  if getUidFromData packet = ledStripUid ∧
      getFunctionIdFromData packet = functionSetRgbValues then
    match unpack rgbLayout (packet.drop 8) with
    | some [[index], [length], r, g, b] =>
        setRgbValues strip index length (r.map UInt8.ofNat)
          (g.map UInt8.ofNat) (b.map UInt8.ofNat)
    | _ => strip
  else
    strip

example : deviceUid (bytes "oV7") = some ledStripUid := by decide

/-- The numbers are of the sizes of the layout. -/
structure RgbCall.Fits (call : RgbCall) : Prop where
  index : call.index < 65536
  length : call.length < 256
  r : call.r.length = 16
  g : call.g.length = 16
  b : call.b.length = 16

theorem RgbCall.Fits.toCall {call : RgbCall} (fits : call.Fits) :
    call.toCall.Fits where
  uid := (by decide : ledStripUid < 2 ^ 32)
  functionId := (by decide : functionSetRgbValues < 256)
  noProbe := (by decide : functionSetRgbValues ≠ functionDisconnectProbe)
  function := (by decide : functionSetRgbValues ≠ 0)
  length := (by decide : 8 + Layout.size rgbLayout ≤ packetSize)
  arguments :=
    .cons (.single fits.index)
      (.cons (.single fits.length)
        (.cons (.bytes fits.r)
          (.cons (.bytes fits.g) (.cons (.bytes fits.b) .nil))))

theorem map_ofNat_toNat (values : List UInt8) :
    (values.map UInt8.toNat).map UInt8.ofNat = values := by
  rw [List.map_map]
  exact (List.map_congr_left (fun byte _ => UInt8.ofNat_toNat)).trans
    (List.map_id values)

/-- The strip does what the call says. -/
theorem executePacket_call
    (strip : Strip) {packet : Bytes} {call : RgbCall}
    (carries : CarriesCall packet call.toCall) :
    executePacket strip packet = call.apply strip := by
  obtain ⟨_, _, request⟩ := carries
  have arguments :
      unpack rgbLayout (packet.drop 8) =
        some
          [[call.index], [call.length], call.r.map UInt8.toNat,
            call.g.map UInt8.toNat, call.b.map UInt8.toNat] :=
    request.arguments
  rw [executePacket, if_pos ⟨request.uid, request.functionId⟩, arguments]
  dsimp only
  rw [map_ofNat_toNat, map_ofNat_toNat, map_ofNat_toNat]
  rfl

theorem foldl_executePacket
    (strip : Strip) {packets : List Bytes} {calls : List RgbCall}
    (carried :
      List.Forall₂ CarriesCall packets (calls.map RgbCall.toCall)) :
    packets.foldl executePacket strip = calls.foldl RgbCall.apply strip := by
  induction calls generalizing strip packets with
  | nil =>
      cases carried
      rfl
  | cons call rest inductionHypothesis =>
      cases carried with
      | cons first others =>
          rw [List.foldl_cons, List.foldl_cons, executePacket_call strip first]
          exact inductionHypothesis _ others

/-! ## The calls of the script fit -/

theorem pythonIndex_mem
    {α : Type} {items : List α} {index : Int} {item : α}
    (found : pythonIndex items index = some item) : item ∈ items := by
  simp only [pythonIndex] at found
  split at found
  next => exact List.mem_of_getElem? found
  next =>
    split at found
    next => exact List.mem_of_getElem? found
    next => cases found

theorem parsePosition_lt
    {position : Bytes} {led : Nat}
    (names : parsePosition position = some led) : led < 100 := by
  have small : ∀ column ∈ locList, ∀ first ∈ column, first < 100 := by
    decide
  simp only [parsePosition] at names
  split at names
  next row _ =>
    obtain ⟨column, isColumn, isFirst⟩ := Option.bind_eq_some_iff.mp names
    exact
      small column (List.mem_of_getElem? isColumn) led
        (pythonIndex_mem isFirst)
  next => cases names

theorem fits_sixteen
    {index length : Nat} (low : index < 65536) (short : length < 256)
    (r g b : UInt8) :
    RgbCall.Fits ⟨index, length, sixteen r, sixteen g, sixteen b⟩ :=
  ⟨low, short, List.length_replicate, List.length_replicate,
    List.length_replicate⟩

theorem fits_turnoffCalls : ∀ call ∈ turnoffCalls, call.Fits := by
  intro call member
  obtain ⟨i, inRange, isCall⟩ := List.mem_map.mp member
  have small := List.mem_range.mp inRange
  rw [← isCall]
  exact fits_sixteen (by omega) (by decide) 0 0 0

theorem fits_toggleLEDCalls
    {state : Int} {position : Option Bytes} {calls : List RgbCall}
    (made : toggleLEDCalls state position = some calls) :
    ∀ call ∈ calls, call.Fits := by
  simp only [toggleLEDCalls] at made
  split at made
  next =>
    rw [← Option.some.inj made]
    exact fits_turnoffCalls
  next text _ =>
    split at made
    next => cases made
    next led names =>
      have small := parsePosition_lt names
      split at made
      next =>
        rw [← Option.some.inj made]
        exact fits_turnoffCalls
      next =>
        intro call member
        split at made
        next =>
          rw [← Option.some.inj made] at member
          rw [List.mem_singleton.mp member]
          exact fits_sixteen (by omega) (by decide) 0 255 0
        next =>
          rw [← Option.some.inj made] at member
          rw [List.mem_singleton.mp member]
          exact fits_sixteen (by omega) (by decide) 0 0 0

theorem fits_positionCalls (state : Int) (positions : List Bytes) :
    ∀ call ∈ positionCalls state positions, call.Fits := by
  induction positions with
  | nil =>
      intro call member
      cases member
  | cons position rest inductionHypothesis =>
      intro call member
      rw [positionCalls] at member
      split at member
      next => cases member
      next calls made =>
        rcases List.mem_append.mp member with first | later
        · exact fits_toggleLEDCalls made call first
        · exact inductionHypothesis call later

theorem fits_opr2Calls (argv : List Bytes) :
    ∀ call ∈ opr2Calls argv, call.Fits := by
  intro call member
  rw [opr2Calls] at member
  split at member
  next => cases member
  next state _ =>
    rcases List.mem_append.mp member with first | later
    · exact fits_turnoffCalls call first
    · exact fits_positionCalls state _ call later

/-- However the script and the probes alternate on the connection and however
the stream is read, the strip ends up as the script says, unless the daemon
wants a secret that the script does not show. -/
theorem strip_after_script
    (daemon : Daemon) (accepts : daemon.check.Accepts) (nonce : Bytes)
    (strip : Strip) (argv : List Bytes) (actions : List ConnectionAction)
    (scheduled :
      actions.filterMap ConnectionAction.call? =
        (opr2Calls argv).map RgbCall.toCall)
    (reads : List Bytes)
    (guarded :
      EveryStep (clientHandleRead daemon) Reads (startReader daemon nonce)
        reads)
    (arrived :
      reads.flatten =
        (runActions Connection.step ipConnection actions).sent.flatten) :
    (runActions (clientHandleRead daemon) (startReader daemon nonce)
          reads).client.dispatched.foldl executePacket strip =
      if daemon.secret.isNone then leftStrip (opr2 strip argv) else strip := by
  have made : ∀ call ∈ (opr2Calls argv).map RgbCall.toCall,
      call.Fits ∧ call.uid ≠ uidBrickDaemon := by
    intro call member
    obtain ⟨rgbCall, isCall, same⟩ := List.mem_map.mp member
    rw [← same]
    exact
      ⟨(fits_opr2Calls argv rgbCall isCall).toCall,
        (by decide : ledStripUid ≠ uidBrickDaemon)⟩
  have makes :
      Makes daemon nonce none ((opr2Calls argv).map RgbCall.toCall)
        actions :=
    ⟨scheduled,
      fun _ impossible => absurd impossible (Option.not_mem_none _),
      fun call member => (made call member).1,
      fun call member => (made call member).2⟩
  have carried := makes.dispatched accepts guarded arrived
  rw [admittedCalls, admits_none] at carried
  by_cases unlocked : daemon.secret.isNone = true
  · rw [if_pos unlocked] at carried ⊢
    rw [leftStrip_opr2]
    exact foldl_executePacket strip carried
  · rw [if_neg unlocked] at carried ⊢
    rw [List.forall₂_nil_right_iff.mp carried]
    rfl

/-- The lights are turned off, a probe is sent, and one cell is lit. -/
def cellSchedule : List ConnectionAction :=
  .createProbe ::
    turnoffCalls.map (fun call => .sendRequest call.toCall) ++
    [.sendProbe,
      .sendRequest
        (RgbCall.toCall ⟨58, 4, sixteen 0, sixteen 255, sixteen 0⟩)]

/-- The stream in reads of twenty bytes. -/
def cellReads : List Bytes :=
  (List.range 63).map (fun i =>
    ((runActions Connection.step ipConnection cellSchedule).sent.flatten.drop
      (20 * i)).take 20)

theorem strip_after_script_cell :
    (runActions (clientHandleRead Daemon.plain) (startReader Daemon.plain [])
          cellReads).client.dispatched.foldl executePacket
        (fun _ => Rgb.lit) =
      leftStrip
        (opr2 (fun _ => Rgb.lit)
          [bytes "scripts/led.py", bytes "1", bytes "01.A"]) :=
  strip_after_script Daemon.plain accepts_plain [] (fun _ => Rgb.lit)
    [bytes "scripts/led.py", bytes "1", bytes "01.A"] cellSchedule rfl
    cellReads (by decide +kernel) (by decide +kernel)

end LtlsKitting.Cabinet
