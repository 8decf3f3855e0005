import LtlsKitting.Bindings.Authentication

/-!
# Connections

The requests of a program and the disconnect probes of a second thread share
the connection and the counter of sequence numbers.  A packet is sent as a
whole, so the stream is an interleaving of both, and the daemon finds their
packets in it again.
-/

namespace LtlsKitting.Bindings

open LtlsKitting.Php LtlsKitting.Formats LtlsKitting.Interaction

/-- The arguments of `send_request`. -/
structure Call where
  uid : Nat
  functionId : Nat
  responseExpected : Bool
  form : Layout
  data : List (List Nat)

/-- The counter, the request of the probe thread, and what was sent. -/
structure Connection where
  nextSequenceNumber : Nat
  probe : Option Bytes
  sent : List Bytes

def ipConnection : Connection where
  nextSequenceNumber := 0
  probe := none
  sent := []

inductive ConnectionAction where
  /-- The probe thread makes its request. -/
  | createProbe
  /-- The probe thread sends it. -/
  | sendProbe
  | sendRequest (call : Call)

def ConnectionAction.call? : ConnectionAction → Option Call
  | .createProbe => none
  | .sendProbe => none
  | .sendRequest call => some call

def broadcastUid : Nat := 0

/-- A request that cannot be packed is not sent, but it has used up its
sequence number. -/
def Connection.step
    (connection : Connection) (action : ConnectionAction) : Connection :=
  let (sequenceNumber, next) :=
    getNextSequenceNumber connection.nextSequenceNumber
  match action with
  | .createProbe =>
      { connection with
        nextSequenceNumber := next
        probe :=
          createPacketHeader broadcastUid 8 functionDisconnectProbe
            sequenceNumber false }
  | .sendProbe =>
      { connection with sent := connection.sent ++ connection.probe.toList }
  | .sendRequest call =>
      { connection with
        nextSequenceNumber := next
        sent :=
          connection.sent ++
            (sendRequest call.uid call.functionId sequenceNumber
              call.responseExpected call.form call.data).toList }

/-- The call fits in a packet, and it is not a probe. -/
structure Call.Fits (call : Call) : Prop where
  uid : call.uid < 2 ^ 32
  functionId : call.functionId < 256
  noProbe : call.functionId ≠ functionDisconnectProbe
  function : call.functionId ≠ 0
  length : 8 + call.form.size ≤ packetSize
  arguments : call.form.Holds call.data

/-- The packet is a request with a sequence number of its own. -/
def Carries
    (packet : Bytes) (uid functionId : Nat) (form : Layout)
    (data : List (List Nat)) : Prop :=
  ∃ sequenceNumber, 0 < sequenceNumber ∧
    IsRequest packet uid functionId sequenceNumber form data

def IsProbe (packet : Bytes) : Prop :=
  Carries packet broadcastUid functionDisconnectProbe [] []

def CarriesCall (packet : Bytes) (call : Call) : Prop :=
  Carries packet call.uid call.functionId call.form call.data

def isProbe (packet : Bytes) : Bool :=
  getFunctionIdFromData packet == functionDisconnectProbe

/-- What was sent are the calls, with probes in between. -/
structure Interleaves (packets : List Bytes) (calls : List Call) : Prop where
  calls :
    List.Forall₂ CarriesCall
      (packets.filter (fun packet => !isProbe packet)) calls
  probes : ∀ packet ∈ packets, isProbe packet = true → IsProbe packet

/-- A connection that has made these calls. -/
structure HasSent (calls : List Call) (connection : Connection) : Prop where
  nextSequenceNumber : connection.nextSequenceNumber < 15
  probe : ∀ packet, connection.probe = some packet → IsProbe packet
  sent : Interleaves connection.sent calls

theorem createPacketHeader_eq
    (uid functionId sequenceNumber : Nat) (responseExpected : Bool) :
    createPacketHeader uid 8 functionId sequenceNumber responseExpected =
      sendRequest uid functionId sequenceNumber responseExpected [] [] := by
  have empty : pack [] [] = some [] := rfl
  have size : 8 + Layout.size [] = 8 := rfl
  rw [sendRequest, size, empty]
  cases createPacketHeader uid 8 functionId sequenceNumber responseExpected with
  | none => rfl
  | some header => simp

theorem IsProbe.isProbe {packet : Bytes} (probe : IsProbe packet) :
    isProbe packet = true := by
  obtain ⟨_, _, request⟩ := probe
  rw [Bindings.isProbe, request.functionId]
  rfl

theorem CarriesCall.not_isProbe
    {packet : Bytes} {call : Call} (carries : CarriesCall packet call)
    (fits : call.Fits) : isProbe packet = false := by
  obtain ⟨_, _, request⟩ := carries
  rw [isProbe, request.functionId]
  exact beq_eq_false_iff_ne.mpr fits.noProbe

theorem Interleaves.append_probe
    {packets : List Bytes} {calls : List Call}
    (interleaves : Interleaves packets calls) {packet : Bytes}
    (probe : IsProbe packet) : Interleaves (packets ++ [packet]) calls := by
  constructor
  · rw [List.filter_append, List.filter_cons_of_neg (by simp [probe.isProbe]),
      List.filter_nil, List.append_nil]
    exact interleaves.calls
  · intro other member isProbe
    rcases List.mem_append.mp member with before | last
    · exact interleaves.probes other before isProbe
    · rw [List.mem_singleton.mp last]
      exact probe

theorem Interleaves.append_call
    {packets : List Bytes} {calls : List Call}
    (interleaves : Interleaves packets calls) {packet : Bytes} {call : Call}
    (carries : CarriesCall packet call) (fits : call.Fits) :
    Interleaves (packets ++ [packet]) (calls ++ [call]) := by
  have noProbe := carries.not_isProbe fits
  constructor
  · rw [List.filter_append, List.filter_cons_of_pos (by simp [noProbe]),
      List.filter_nil]
    exact List.rel_append interleaves.calls (.cons carries .nil)
  · intro other member isProbe
    rcases List.mem_append.mp member with before | last
    · exact interleaves.probes other before isProbe
    · rw [List.mem_singleton.mp last, noProbe] at isProbe
      cases isProbe

theorem hasSent_ipConnection : HasSent [] ipConnection where
  nextSequenceNumber := by decide
  probe := by
    intro packet none
    cases none
  sent := ⟨.nil, by
    intro packet member
    cases member⟩

theorem carries_of_sendable
    {connection : Connection} {uid functionId : Nat} {form : Layout} {data : List (List Nat)}
    (sendable :
      Sendable uid functionId
        (getNextSequenceNumber connection.nextSequenceNumber).1 form data)
    (responseExpected : Bool) :
    ∃ packet,
      sendRequest uid functionId
          (getNextSequenceNumber connection.nextSequenceNumber).1
          responseExpected form data =
        some packet ∧
        Carries packet uid functionId form data := by
  obtain ⟨packet, made, request⟩ :=
    sendRequest_of_sendable sendable responseExpected
  exact ⟨packet, made, _, Nat.succ_pos _, request⟩

/-- One action of either thread. -/
theorem HasSent.step
    {calls : List Call} {connection : Connection}
    (sofar : HasSent calls connection) {action : ConnectionAction}
    (fits : ∀ call, action.call? = some call → call.Fits) :
    HasSent (calls ++ action.call?.toList) (connection.step action) := by
  have small := sofar.nextSequenceNumber
  have next :
      (getNextSequenceNumber connection.nextSequenceNumber).2 < 15 :=
    Nat.mod_lt _ (by decide)
  have number :
      (getNextSequenceNumber connection.nextSequenceNumber).1 < 16 :=
    Nat.succ_lt_succ small
  cases action with
  | createProbe =>
      obtain ⟨packet, made, probe⟩ :=
        carries_of_sendable
          (@Sendable.mk broadcastUid functionDisconnectProbe _ [] []
            (by decide) (by decide) number (by decide) .nil)
          false
      refine ⟨next, ?_, ?_⟩
      · intro other isOther
        have header :=
          (createPacketHeader_eq broadcastUid functionDisconnectProbe
            (getNextSequenceNumber connection.nextSequenceNumber).1
            false).trans made
        rw [← Option.some.inj (header.symm.trans isOther)]
        exact probe
      · rw [ConnectionAction.call?, Option.toList_none, List.append_nil]
        exact sofar.sent
  | sendProbe =>
      refine ⟨small, sofar.probe, ?_⟩
      rw [ConnectionAction.call?, Option.toList_none, List.append_nil]
      cases isProbe : connection.probe with
      | none =>
          simpa [Connection.step, isProbe] using sofar.sent
      | some packet =>
          simpa [Connection.step, isProbe] using
            sofar.sent.append_probe (sofar.probe packet isProbe)
  | sendRequest call =>
      have callFits := fits call rfl
      obtain ⟨packet, made, carries⟩ :=
        carries_of_sendable
          ⟨callFits.uid, callFits.functionId, number,
            callFits.length.trans_lt (by decide), callFits.arguments⟩
          call.responseExpected
      refine ⟨next, sofar.probe, ?_⟩
      have sent :
          (connection.step (.sendRequest call)).sent =
            connection.sent ++ [packet] := by
        simp only [Connection.step]
        rw [made]
        rfl
      rw [sent]
      exact sofar.sent.append_call carries callFits

/-- Both threads, in any order. -/
theorem runActions_hasSent
    {calls : List Call} {connection : Connection}
    (sofar : HasSent calls connection) {actions : List ConnectionAction}
    (fit : ∀ call ∈ actions.filterMap ConnectionAction.call?, call.Fits) :
    HasSent (calls ++ actions.filterMap ConnectionAction.call?)
      (runActions Connection.step connection actions) := by
  induction actions generalizing calls connection with
  | nil =>
      rw [List.filterMap_nil, List.append_nil]
      exact sofar
  | cons action rest inductionHypothesis =>
      have first : ∀ call, action.call? = some call → call.Fits :=
        fun call isCall =>
          fit call (List.mem_filterMap.mpr ⟨action, List.mem_cons_self .., isCall⟩)
      have later :
          ∀ call ∈ rest.filterMap ConnectionAction.call?, call.Fits := by
        intro call member
        obtain ⟨other, isOther, isCall⟩ := List.mem_filterMap.mp member
        exact
          fit call
            (List.mem_filterMap.mpr
              ⟨other, List.mem_cons_of_mem _ isOther, isCall⟩)
      have whole :
          (action :: rest).filterMap ConnectionAction.call? =
            action.call?.toList ++
              rest.filterMap ConnectionAction.call? := by
        rw [List.filterMap_cons]
        cases action.call? <;> rfl
      rw [whole, ← List.append_assoc]
      exact inductionHypothesis (sofar.step first) later

/-! ## The other side -/

/-- The check accepts every header with a length that fits in the buffer, a
function and a sequence number. -/
def HeaderCheck.Accepts (check : HeaderCheck) : Prop :=
  ∀ header : Bytes, header.length = 8 →
    8 ≤ getLengthFromData header →
      getLengthFromData header ≤ packetSize →
        getFunctionIdFromData header ≠ 0 →
          getSequenceNumberFromData header ≠ 0 → check.valid header = true

theorem byteAt_take {packet : Bytes} {index : Nat} (inside : index < 8) :
    byteAt (packet.take 8) index = byteAt packet index := by
  rw [byteAt, byteAt, List.getD_eq_getElem?_getD, List.getD_eq_getElem?_getD,
    List.getElem?_take_of_lt inside]

theorem Carries.isFrame
    {daemon : Daemon} (accepts : daemon.check.Accepts) {packet : Bytes}
    {uid functionId : Nat} {form : Layout} {data : List (List Nat)}
    (carries : Carries packet uid functionId form data)
    (short : 8 + form.size ≤ packetSize) (function : functionId ≠ 0) :
    (requestFraming daemon).IsFrame packet := by
  obtain ⟨sequenceNumber, positive, request⟩ := carries
  have long : 8 ≤ packet.length := by
    rw [request.length]
    exact Nat.le_add_right _ _
  have valid : daemon.check.valid (packet.take 8) = true := by
    apply accepts
    · rw [List.length_take]
      omega
    · rw [getLengthFromData_take, request.lengthByte]
      exact long
    · rw [getLengthFromData_take, request.lengthByte, request.length]
      exact short
    · rw [getFunctionIdFromData, byteAt_take (by decide)]
      exact ne_of_eq_of_ne request.functionId function
    · rw [getSequenceNumberFromData, byteAt_take (by decide)]
      exact
        ne_of_eq_of_ne request.sequenceNumber (Nat.pos_iff_ne_zero.mp positive)
  rw [Framing.IsFrame, cut_request, if_neg (by omega),
    if_neg (by simp [valid]), request.lengthByte, if_neg (by omega),
    List.take_length, List.drop_length]

theorem Interleaves.cases
    {packets : List Bytes} {calls : List Call}
    (interleaves : Interleaves packets calls) {packet : Bytes}
    (member : packet ∈ packets) :
    IsProbe packet ∨ ∃ call ∈ calls, CarriesCall packet call := by
  cases probe : isProbe packet with
  | true => exact Or.inl (interleaves.probes packet member probe)
  | false =>
      right
      have filtered :
          packet ∈ packets.filter (fun packet => !isProbe packet) :=
        List.mem_filter.mpr ⟨member, by simp [probe]⟩
      obtain ⟨index, inside, atIndex⟩ := List.mem_iff_getElem.mp filtered
      have alsoInside : index < calls.length :=
        interleaves.calls.length_eq ▸ inside
      have carries := interleaves.calls.get inside alsoInside
      rw [List.get_eq_getElem, atIndex] at carries
      exact ⟨calls[index], List.getElem_mem _, carries⟩

theorem Interleaves.drain
    {daemon : Daemon} (accepts : daemon.check.Accepts)
    {packets : List Bytes} {calls : List Call}
    (interleaves : Interleaves packets calls)
    (fit : ∀ call ∈ calls, call.Fits) :
    (requestFraming daemon).drain packets.flatten = ⟨packets, [], false⟩ := by
  have frames :
      ∀ packet ∈ packets, (requestFraming daemon).IsFrame packet := by
    intro packet member
    rcases interleaves.cases member with probe | ⟨call, isCall, carries⟩
    · exact Carries.isFrame accepts probe (by decide) (by decide)
    · exact
        Carries.isFrame accepts carries (fit call isCall).length
          (fit call isCall).function
  have whole := Framing.drain_flatten frames []
  have ends : (requestFraming daemon).drain [] = ⟨[], [], false⟩ := rfl
  rw [List.append_nil, ends] at whole
  rw [whole, List.append_nil]

end LtlsKitting.Bindings
