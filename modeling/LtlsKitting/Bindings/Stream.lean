import LtlsKitting.Bindings.Daemon
import LtlsKitting.Formats.Framing
import LtlsKitting.Interaction.Runs

/-!
# The stream of a client

The requests of a client arrive in reads of any size.  The loop over the buffer
cuts the frames of the stream off, so that what becomes of a client depends on
the stream alone and not on how it was read.  The buffer always has room for
another read: a read of nothing would be taken for the end of the connection.
-/

namespace LtlsKitting.Bindings

open LtlsKitting.Php LtlsKitting.Formats LtlsKitting.Interaction

section

variable {daemon : Daemon}

theorem getLengthFromData_take {data : Bytes} :
    getLengthFromData (data.take 8) = getLengthFromData data := by
  simp only [getLengthFromData, byteAt, List.getD_eq_getElem?_getD]
  rw [List.getElem?_take_of_lt (by decide)]

/-- The frames of the stream of a client. -/
def requestFraming (daemon : Daemon) : Framing UInt8 where
  header := 8
  length := fun header =>
    if daemon.check.valid header then some (getLengthFromData header)
    else none
  positive := by
    intro header frame known
    split at known
    next valid =>
      have bounds := daemon.check.bounds header valid
      rw [← Option.some.inj known]
      omega
    next => cases known

/-- The packets are handled until the client is disconnected. -/
def servePackets (daemon : Daemon) (client : Client) (packets : List Bytes) :
    Client :=
  packets.foldl
    (fun current packet =>
      if current.disconnected then current
      else handlePacket daemon current packet)
    client

/-- What the frames that were received make of the client. -/
def serveReceived
    (daemon : Daemon) (client : Client) (received : Received UInt8) :
    Client :=
  let served := servePackets daemon client received.packets
  if received.broken then served.disconnect else served

theorem servePackets_disconnected
    {client : Client} (gone : client.disconnected = true)
    (packets : List Bytes) : servePackets daemon client packets = client := by
  induction packets with
  | nil => rfl
  | cons packet rest inductionHypothesis =>
      rw [servePackets, List.foldl_cons, gone, if_pos rfl]
      exact inductionHypothesis

theorem servePackets_append
    (client : Client) (first second : List Bytes) :
    servePackets daemon client (first ++ second) =
      servePackets daemon (servePackets daemon client first) second :=
  List.foldl_append

/-- The flag of a checked header is right, and a buffer that is not finished
is the beginning of a frame. -/
structure Consistent (daemon : Daemon) (reader : Reader) : Prop where
  checked :
    reader.headerChecked = true →
      8 ≤ reader.request.length ∧
        daemon.check.valid (reader.request.take 8) = true
  waiting :
    reader.client.disconnected = false →
      (requestFraming daemon).cut reader.request = .incomplete

theorem cut_request (request : Bytes) :
    (requestFraming daemon).cut request =
      if request.length < 8 then
        .incomplete
      else if daemon.check.valid (request.take 8) = false then
        .invalid
      else if request.length < getLengthFromData request then
        .incomplete
      else
        .frame (request.take (getLengthFromData request))
          (request.drop (getLengthFromData request)) := by
  simp only [Framing.cut, requestFraming]
  cases valid : daemon.check.valid (request.take 8) with
  | false => simp
  | true => simp [getLengthFromData_take]

/-- A buffer that begins a frame has room for more. -/
theorem length_lt_of_incomplete {request : Bytes}
    (waits : (requestFraming daemon).cut request = .incomplete) :
    request.length < packetSize := by
  rw [cut_request] at waits
  split at waits
  next short =>
    exact short.trans (by decide)
  next =>
    split at waits
    next => cases waits
    next valid =>
      split at waits
      next short =>
        have isValid : daemon.check.valid (request.take 8) = true := by
          simpa using valid
        have bounds := daemon.check.bounds _ isValid
        rw [getLengthFromData_take] at bounds
        omega
      next => cases waits

theorem serveReceived_cons
    (client : Client) (packet : Bytes) (received : Received UInt8)
    (connected : client.disconnected = false) :
    serveReceived daemon client (received.cons packet) =
      serveReceived daemon (handlePacket daemon client packet) received := by
  simp only [serveReceived, Received.cons, servePackets, List.foldl_cons,
    connected, Bool.false_eq_true, if_false]

theorem serveReceived_disconnected
    {client : Client} (gone : client.disconnected = true)
    (received : Received UInt8) :
    serveReceived daemon client received = client := by
  have same : client.disconnect = client := by
    rw [Client.disconnect, ← gone]
  simp only [serveReceived, servePackets_disconnected gone, same, ite_self]

/-- What the loop over the buffer has done when it ends. -/
structure Loops (daemon : Daemon) (reader result : Reader) : Prop where
  client :
    result.client =
      serveReceived daemon reader.client
        ((requestFraming daemon).drain reader.request)
  consistent : Consistent daemon result
  request :
    result.client.disconnected = false →
      result.request =
        ((requestFraming daemon).drain reader.request).pending

/-- A client that has gone is not touched any more. -/
theorem loops_disconnected
    {reader : Reader} (gone : reader.client.disconnected = true)
    (checked :
      reader.headerChecked = true →
        8 ≤ reader.request.length ∧
          daemon.check.valid (reader.request.take 8) = true) :
    Loops daemon reader reader := by
  refine ⟨(serveReceived_disconnected gone _).symm, ⟨checked, ?_⟩, ?_⟩
  · intro connected
    rw [gone] at connected
    cases connected
  · intro connected
    rw [gone] at connected
    cases connected

/-- The loop stops where the next frame is incomplete. -/
theorem loops_incomplete
    {reader : Reader} (checkedNow : Bool)
    (waits : (requestFraming daemon).cut reader.request = .incomplete)
    (checked :
      checkedNow = true →
        8 ≤ reader.request.length ∧
          daemon.check.valid (reader.request.take 8) = true) :
    Loops daemon reader { reader with headerChecked := checkedNow } := by
  have drained :
      (requestFraming daemon).drain reader.request =
        ⟨[], reader.request, false⟩ := by
    rw [Framing.drain_eq, waits]
  refine ⟨?_, ⟨checked, fun _ => waits⟩, ?_⟩
  · rw [drained]
    rfl
  · rw [drained]
    exact fun _ => rfl

theorem readLoop_loops
    {rounds : Nat} {reader : Reader}
    (enough : reader.request.length < rounds)
    (checked :
      reader.headerChecked = true →
        8 ≤ reader.request.length ∧
          daemon.check.valid (reader.request.take 8) = true) :
    Loops daemon reader (readLoop daemon rounds reader) := by
  induction rounds generalizing reader with
  | zero => omega
  | succ rounds inductionHypothesis =>
      rw [readLoop]
      cases gone : reader.client.disconnected with
      | true => exact loops_disconnected gone checked
      | false =>
          by_cases short : reader.request.length < 8
          · have waits :
                (requestFraming daemon).cut reader.request = .incomplete := by
              rw [cut_request, if_pos short]
            have same :
                { reader with headerChecked := reader.headerChecked } =
                  reader := rfl
            have stops := loops_incomplete reader.headerChecked waits checked
            rw [same] at stops
            cases reader.request.isEmpty <;> simpa [short] using stops
          · have nonempty : reader.request.isEmpty = false := by
              cases isRequest : reader.request with
              | nil =>
                  rw [isRequest] at short
                  exact absurd (by decide) short
              | cons byte rest => rfl
            rw [nonempty, Bool.or_false, if_neg Bool.false_ne_true,
              if_neg short]
            cases valid : daemon.check.valid (reader.request.take 8) with
            | false =>
                have unchecked : reader.headerChecked = false := by
                  cases flag : reader.headerChecked with
                  | false => rfl
                  | true =>
                      have isValid := (checked flag).2
                      rw [valid] at isValid
                      cases isValid
                have ends :
                    (requestFraming daemon).drain reader.request =
                      ⟨[], [], true⟩ := by
                  rw [Framing.drain_eq, cut_request, if_neg short,
                    if_pos valid]
                rw [unchecked, Bool.not_false, Bool.and_self, if_pos rfl]
                refine ⟨?_, ⟨?_, ?_⟩, ?_⟩
                · rw [ends]
                  rfl
                · intro flag
                  cases flag
                · intro connected
                  cases connected
                · intro connected
                  cases connected
            | true =>
                rw [Bool.not_true, Bool.and_false,
                  if_neg Bool.false_ne_true]
                by_cases partly :
                    reader.request.length < getLengthFromData reader.request
                · rw [if_pos partly]
                  apply loops_incomplete
                  · rw [cut_request, if_neg short,
                      if_neg (by rw [valid]; exact Bool.true_eq_false.mp),
                      if_pos partly]
                  · exact fun _ => ⟨Nat.le_of_not_lt short, valid⟩
                · rw [if_neg partly]
                  have isFrame :
                      (requestFraming daemon).cut reader.request =
                        .frame
                          (reader.request.take
                            (getLengthFromData reader.request))
                          (reader.request.drop
                            (getLengthFromData reader.request)) := by
                    rw [cut_request, if_neg short, if_neg (by simp [valid]),
                      if_neg partly]
                  have shorter := Framing.length_rest_lt isFrame
                  obtain ⟨sameClient, consistent, sameRequest⟩ :=
                    @inductionHypothesis
                      { client :=
                          handlePacket daemon reader.client
                            (reader.request.take
                              (getLengthFromData reader.request))
                        request :=
                          reader.request.drop
                            (getLengthFromData reader.request)
                        headerChecked := false }
                      (by
                        dsimp only
                        omega)
                      (fun flag => Bool.noConfusion flag)
                  refine ⟨?_, consistent, ?_⟩
                  · rw [sameClient, Framing.drain_eq reader.request, isFrame]
                    exact (serveReceived_cons _ _ _ gone).symm
                  · rw [Framing.drain_eq reader.request, isFrame]
                    exact sameRequest

/-! ## Reads -/

theorem serveReceived_append
    (client : Client) (first later : Received UInt8)
    (intact : first.broken = false) :
    serveReceived daemon client
        { later with packets := first.packets ++ later.packets } =
      serveReceived daemon (serveReceived daemon client first) later := by
  simp only [serveReceived, intact, servePackets_append]
  rfl

theorem broken_of_connected
    {client : Client} {received : Received UInt8}
    (connected :
      (serveReceived daemon client received).disconnected = false) :
    received.broken = false := by
  cases isBroken : received.broken with
  | false => rfl
  | true =>
      rw [serveReceived, isBroken, if_pos rfl] at connected
      cases connected

/-- The reader has handled the stream so far. -/
structure HasRead
    (daemon : Daemon) (nonce : Bytes) (stream : Bytes) (reader : Reader) :
    Prop where
  client :
    reader.client =
      serveReceived daemon (clientCreate daemon nonce)
        ((requestFraming daemon).drain stream)
  consistent : Consistent daemon reader
  request :
    reader.client.disconnected = false →
      reader.request = ((requestFraming daemon).drain stream).pending

theorem hasRead_start (nonce : Bytes) :
    HasRead daemon nonce [] (startReader daemon nonce) where
  client := rfl
  consistent := ⟨fun flag => Bool.noConfusion flag, fun _ => rfl⟩
  request := fun _ => rfl

/-- One read. -/
theorem HasRead.read
    {nonce stream : Bytes} {reader : Reader}
    (sofar : HasRead daemon nonce stream reader) {data : Bytes}
    (reads : Reads reader data) :
    HasRead daemon nonce (stream ++ data)
      (clientHandleRead daemon reader data) := by
  obtain ⟨connected, some, _⟩ := reads
  have nonempty : data.isEmpty = false := by
    cases data with
    | nil => exact absurd rfl some
    | cons byte rest => rfl
  have intact : ((requestFraming daemon).drain stream).broken = false := by
    rw [sofar.client] at connected
    exact broken_of_connected connected
  have whole :
      (requestFraming daemon).drain (stream ++ data) =
        { (requestFraming daemon).drain (reader.request ++ data) with
          packets :=
            ((requestFraming daemon).drain stream).packets ++
              ((requestFraming daemon).drain
                (reader.request ++ data)).packets } := by
    rw [Framing.drain_append, Framing.receive, intact,
      if_neg Bool.false_ne_true, sofar.request connected]
  have checked :
      reader.headerChecked = true →
        8 ≤ (reader.request ++ data).length ∧
          daemon.check.valid ((reader.request ++ data).take 8) = true := by
    intro flag
    obtain ⟨long, valid⟩ := sofar.consistent.checked flag
    rw [List.take_append_of_le_length long, List.length_append]
    exact ⟨long.trans (Nat.le_add_right _ _), valid⟩
  have loops :
      Loops daemon { reader with request := reader.request ++ data }
        (readLoop daemon ((reader.request ++ data).length + 1)
          { reader with request := reader.request ++ data }) :=
    readLoop_loops (Nat.lt_succ_self _) checked
  rw [clientHandleRead, nonempty, if_neg Bool.false_ne_true]
  refine ⟨?_, loops.consistent, ?_⟩
  · rw [loops.client, whole, serveReceived_append _ _ _ intact,
      ← sofar.client]
  · rw [whole]
    exact loops.request

theorem runActions_hasRead
    {nonce : Bytes} {reads : List Bytes} {stream : Bytes} {reader : Reader}
    (sofar : HasRead daemon nonce stream reader)
    (guarded : EveryStep (clientHandleRead daemon) Reads reader reads) :
    HasRead daemon nonce (stream ++ reads.flatten)
      (runActions (clientHandleRead daemon) reader reads) := by
  induction reads generalizing stream reader with
  | nil =>
      rw [List.flatten_nil, List.append_nil]
      exact sofar
  | cons data rest inductionHypothesis =>
      rw [List.flatten_cons, ← List.append_assoc]
      exact inductionHypothesis (sofar.read guarded.1) guarded.2

variable (daemon)

/-- However the stream is read, the client has been served the frames of the
stream, and unless it is disconnected there is room for another read. -/
theorem reads_served
    (nonce : Bytes) (reads : List Bytes)
    (guarded :
      EveryStep (clientHandleRead daemon) Reads (startReader daemon nonce)
        reads) :
    (runActions (clientHandleRead daemon) (startReader daemon nonce)
          reads).client =
        serveReceived daemon (clientCreate daemon nonce)
          ((requestFraming daemon).drain reads.flatten) ∧
      EveryState (clientHandleRead daemon)
        (fun reader =>
          reader.client.disconnected = false →
            0 < packetSize - reader.request.length)
        (startReader daemon nonce) reads := by
  constructor
  · exact (runActions_hasRead (hasRead_start nonce) guarded).client
  · have visited :
        EveryState (clientHandleRead daemon)
          (fun reader => ∃ stream, HasRead daemon nonce stream reader)
          (startReader daemon nonce) reads :=
      everyState_invariant _
        (fun _ _ sofar reads => ⟨_, sofar.choose_spec.read reads⟩)
        ⟨[], hasRead_start nonce⟩ guarded
    refine visited.imp ?_
    rintro reader ⟨stream, sofar⟩ connected
    exact
      Nat.sub_pos_of_lt
        (length_lt_of_incomplete (sofar.consistent.waiting connected))

end

/-- A packet and a half, and the rest of the second one. -/
theorem reads_served_plain :
    (runActions (clientHandleRead Daemon.plain)
          (startReader Daemon.plain [])
          [[5, 0, 0, 0, 8, 1, 16, 0, 5, 0, 0], [0, 8, 1, 32, 0]]).client =
        ⟨false, .disabled, [],
          [[5, 0, 0, 0, 8, 1, 16, 0], [5, 0, 0, 0, 8, 1, 32, 0]]⟩ ∧
      EveryState (clientHandleRead Daemon.plain)
        (fun reader =>
          reader.client.disconnected = false →
            0 < packetSize - reader.request.length)
        (startReader Daemon.plain [])
        [[5, 0, 0, 0, 8, 1, 16, 0, 5, 0, 0], [0, 8, 1, 32, 0]] :=
  ⟨((reads_served Daemon.plain []
      [[5, 0, 0, 0, 8, 1, 16, 0, 5, 0, 0], [0, 8, 1, 32, 0]]
      (by decide)).1).trans (by decide),
    (reads_served Daemon.plain []
      [[5, 0, 0, 0, 8, 1, 16, 0, 5, 0, 0], [0, 8, 1, 32, 0]]
      (by decide)).2⟩

end LtlsKitting.Bindings
