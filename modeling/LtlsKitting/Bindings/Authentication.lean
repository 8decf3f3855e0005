import LtlsKitting.Bindings.Stream

/-!
# Authentication

A client of a daemon with a secret asks for a nonce and answers with a digest
of the nonce; it may do so again later.  Every other request of the two
functions disconnects it.  What reaches the hardware is therefore determined by
the packets of the client: those for a device that come after an answer to the
last nonce.
-/

namespace LtlsKitting.Bindings

open LtlsKitting.Php LtlsKitting.Formats LtlsKitting.Interaction

/-- The packet is a request of one of the functions of the authentication. -/
def isAuthentication (packet : Bytes) : Bool :=
  getUidFromData packet == uidBrickDaemon &&
    (getFunctionIdFromData packet == functionGetAuthenticationNonce ||
      getFunctionIdFromData packet == functionAuthenticate)

/-- The packet is a request to a device. -/
def isForHardware (packet : Bytes) : Bool :=
  getUidFromData packet != uidBrickDaemon &&
    getFunctionIdFromData packet != functionDisconnectProbe

def asksNonce (packet : Bytes) : Bool :=
  getFunctionIdFromData packet == functionGetAuthenticationNonce &&
    getLengthFromData packet == 8

def answersNonce (daemon : Daemon) (nonce : Bytes) (packet : Bytes) : Bool :=
  getFunctionIdFromData packet == functionAuthenticate &&
    getLengthFromData packet == 32 &&
      (packet.drop 12).take 20 == expectedDigest daemon nonce packet

/-- Nonces are asked for and answered in turn, and only if there is a
secret. -/
def expectedAt
    (daemon : Daemon) (nonce : Bytes) (index : Nat) (packet : Bytes) : Bool :=
  daemon.secret.isSome &&
    if index % 2 = 0 then asksNonce packet
    else answersNonce daemon nonce packet

/-- The requests of the authentication in the order in which they came. -/
def authentications (packets : List Bytes) : List Bytes :=
  packets.filter isAuthentication

def isHandshake
    (daemon : Daemon) (nonce : Bytes) (packets : List Bytes) : Bool :=
  (authentications packets).zipIdx.all
    (fun entry => expectedAt daemon nonce entry.2 entry.1)

/-- The state after so many expected requests of the authentication. -/
def stateAfter (daemon : Daemon) (count : Nat) : AuthenticationState :=
  if daemon.secret.isNone then .disabled
  else if count = 0 then .enabled
  else if count % 2 = 1 then .nonceSend
  else .done

/-- A client that has sent these packets may talk to devices. -/
def isUnlocked
    (daemon : Daemon) (nonce : Bytes) (packets : List Bytes) : Bool :=
  isHandshake daemon nonce packets &&
    (stateAfter daemon (authentications packets).length == .disabled ||
      stateAfter daemon (authentications packets).length == .done)

/-- The items that are chosen in view of those before them. -/
def chosenAfter {α : Type} (chooses : List α → α → Bool) :
    List α → List α → List α
  | _, [] => []
  | earlier, item :: rest =>
      (if chooses earlier item then [item] else []) ++
        chosenAfter chooses (earlier ++ [item]) rest

/-- The packets for a device that come from an unlocked client. -/
def dispatchedOf
    (daemon : Daemon) (nonce : Bytes) (packets : List Bytes) : List Bytes :=
  chosenAfter
    (fun earlier packet =>
      isForHardware packet && isUnlocked daemon nonce earlier)
    [] packets

theorem chosenAfter_append
    {α : Type} (chooses : List α → α → Bool)
    (earlier first second : List α) :
    chosenAfter chooses earlier (first ++ second) =
      chosenAfter chooses earlier first ++
        chosenAfter chooses (earlier ++ first) second := by
  induction first generalizing earlier with
  | nil =>
      rw [List.append_nil]
      rfl
  | cons item rest inductionHypothesis =>
      rw [List.cons_append, chosenAfter, chosenAfter, inductionHypothesis,
        List.append_assoc, List.append_assoc]
      rfl

section

variable {daemon : Daemon} {nonce : Bytes}

theorem authentications_append_singleton
    (packets : List Bytes) (packet : Bytes) :
    authentications (packets ++ [packet]) =
      if isAuthentication packet then authentications packets ++ [packet]
      else authentications packets := by
  rw [authentications, List.filter_append]
  split
  next is => rw [List.filter_cons_of_pos is]; rfl
  next other => rw [List.filter_cons_of_neg other]; simp [authentications]

theorem isHandshake_append_singleton
    (packets : List Bytes) (packet : Bytes) :
    isHandshake daemon nonce (packets ++ [packet]) =
      (isHandshake daemon nonce packets &&
        (!isAuthentication packet ||
          expectedAt daemon nonce (authentications packets).length
            packet)) := by
  rw [isHandshake, authentications_append_singleton]
  cases isAuthentication packet with
  | false => simp [isHandshake]
  | true => simp [isHandshake, List.zipIdx_append]

/-- What a packet that is not a request of the authentication does. -/
theorem handlePacket_other
    (client : Client) {packet : Bytes}
    (other : isAuthentication packet = false) :
    handlePacket daemon client packet =
      { client with
        dispatched := client.dispatched ++
          (if isForHardware packet &&
              (client.authentication == .disabled ||
                client.authentication == .done) then
            [packet]
          else []) } := by
  simp only [isAuthentication, Bool.and_eq_false_iff, Bool.or_eq_false_iff,
    beq_eq_false_iff_ne, ne_eq] at other
  have unchanged : client = { client with dispatched := client.dispatched ++ [] } := by
    rw [List.append_nil]
  rw [handlePacket]
  split
  next probe =>
    have notFor : isForHardware packet = false := by
      simp [isForHardware, probe]
    rw [notFor]
    exact unchanged
  next function =>
    rw [clientHandleRequest]
    by_cases toDaemon : getUidFromData packet = uidBrickDaemon
    · obtain ⟨noNonce, noAnswer⟩ :=
        other.resolve_left (fun different => different toDaemon)
      have notFor : isForHardware packet = false := by
        simp [isForHardware, toDaemon]
      rw [if_pos toDaemon, if_neg noNonce, if_neg noAnswer, notFor]
      exact unchanged
    · have isFor : isForHardware packet = true := by
        simp [isForHardware, toDaemon, function]
      rw [if_neg toDaemon, isFor]
      cases state : client.authentication with
      | disabled => rfl
      | done => rfl
      | enabled => exact unchanged.trans (by rw [state]; rfl)
      | nonceSend => exact unchanged.trans (by rw [state]; rfl)

theorem stateAfter_of_none (unlocked : daemon.secret = none) (count : Nat) :
    stateAfter daemon count = .disabled := by
  rw [stateAfter, unlocked]
  rfl

theorem stateAfter_even
    {secret : Bytes} (locked : daemon.secret = some secret) {count : Nat}
    (even : count % 2 = 0) :
    stateAfter daemon count = if count = 0 then .enabled else .done := by
  have notOdd : ¬ count % 2 = 1 := by omega
  simp [stateAfter, locked, notOdd]

theorem stateAfter_odd
    {secret : Bytes} (locked : daemon.secret = some secret) {count : Nat}
    (odd : ¬ count % 2 = 0) :
    stateAfter daemon count = .nonceSend := by
  have isOdd : count % 2 = 1 := by omega
  have positive : ¬ count = 0 := by omega
  simp [stateAfter, locked, isOdd, positive]

theorem handleNonceRequest_eq
    {client : Client} {count : Nat}
    (state : client.authentication = stateAfter daemon count) :
    handleNonceRequest client =
      if daemon.secret.isSome && decide (count % 2 = 0) then
        { client with authentication := stateAfter daemon (count + 1) }
      else
        client.disconnect := by
  cases locked : daemon.secret with
  | none =>
      rw [stateAfter_of_none locked] at state
      rw [handleNonceRequest, state]
      rfl
  | some secret =>
      by_cases even : count % 2 = 0
      · have next : stateAfter daemon (count + 1) = .nonceSend :=
          stateAfter_odd locked (by omega)
        rw [stateAfter_even locked even] at state
        rw [next, decide_eq_true even, handleNonceRequest, state]
        by_cases first : count = 0
        · rw [if_pos first]
          rfl
        · rw [if_neg first]
          rfl
      · rw [stateAfter_odd locked even] at state
        rw [decide_eq_false even, handleNonceRequest, state]
        rfl

theorem handleAuthenticate_eq
    {client : Client} {packet : Bytes} {count : Nat}
    (state : client.authentication = stateAfter daemon count)
    (sameNonce : client.authenticationNonce = nonce) :
    handleAuthenticate daemon client packet =
      if daemon.secret.isSome && decide (count % 2 = 1) &&
          (packet.drop 12).take 20 == expectedDigest daemon nonce packet then
        { client with authentication := stateAfter daemon (count + 1) }
      else
        client.disconnect := by
  cases locked : daemon.secret with
  | none =>
      rw [stateAfter_of_none locked] at state
      rw [handleAuthenticate, state]
      rfl
  | some secret =>
      by_cases even : count % 2 = 0
      · have notOdd : ¬ count % 2 = 1 := by omega
        rw [stateAfter_even locked even] at state
        rw [decide_eq_false notOdd, handleAuthenticate, state]
        by_cases first : count = 0
        · rw [if_pos first]
          rfl
        · rw [if_neg first]
          rfl
      · have odd : count % 2 = 1 := by omega
        have next : stateAfter daemon (count + 1) = .done := by
          rw [stateAfter_even locked (by omega), if_neg (by omega)]
        rw [stateAfter_odd locked even] at state
        rw [next, decide_eq_true odd, handleAuthenticate, state, sameNonce]
        simp

/-- A request of the authentication is the one that is expected next, or it
disconnects the client. -/
theorem handlePacket_authentication
    {client : Client} {packet : Bytes} {count : Nat}
    (isRequest : isAuthentication packet = true)
    (state : client.authentication = stateAfter daemon count)
    (sameNonce : client.authenticationNonce = nonce) :
    handlePacket daemon client packet =
      if expectedAt daemon nonce count packet then
        { client with authentication := stateAfter daemon (count + 1) }
      else
        client.disconnect := by
  simp only [isAuthentication, Bool.and_eq_true, Bool.or_eq_true, beq_iff_eq]
    at isRequest
  obtain ⟨toDaemon, nonceRequest | authenticate⟩ := isRequest
  · have noProbe : ¬ getFunctionIdFromData packet = functionDisconnectProbe := by
      rw [nonceRequest]
      decide
    have noAnswer : answersNonce daemon nonce packet = false := by
      rw [answersNonce, nonceRequest]
      rfl
    have asks : asksNonce packet = (getLengthFromData packet == 8) := by
      rw [asksNonce, nonceRequest]
      rfl
    rw [handlePacket, if_neg noProbe, clientHandleRequest, if_pos toDaemon,
      if_pos nonceRequest, handleNonceRequest_eq state, expectedAt, noAnswer,
      asks]
    by_cases length : getLengthFromData packet = 8
    · by_cases even : count % 2 = 0 <;> simp [length, even]
    · simp [length]
  · have noProbe : ¬ getFunctionIdFromData packet = functionDisconnectProbe := by
      rw [authenticate]
      decide
    have noNonce :
        ¬ getFunctionIdFromData packet = functionGetAuthenticationNonce := by
      rw [authenticate]
      decide
    have noQuestion : asksNonce packet = false := by
      rw [asksNonce, authenticate]
      rfl
    have answers :
        answersNonce daemon nonce packet =
          (getLengthFromData packet == 32 &&
            (packet.drop 12).take 20 ==
              expectedDigest daemon nonce packet) := by
      rw [answersNonce, authenticate]
      rfl
    rw [handlePacket, if_neg noProbe, clientHandleRequest, if_pos toDaemon,
      if_neg noNonce, if_pos authenticate,
      handleAuthenticate_eq state sameNonce, expectedAt, noQuestion, answers]
    by_cases length : getLengthFromData packet = 32
    · by_cases even : count % 2 = 0
      · simp [length, even]
      · have odd : count % 2 = 1 := by omega
        simp [length, odd]
    · simp [length]

/-! ## Runs -/

theorem dispatchedOf_append_singleton
    (packets : List Bytes) (packet : Bytes) :
    dispatchedOf daemon nonce (packets ++ [packet]) =
      dispatchedOf daemon nonce packets ++
        (if isForHardware packet && isUnlocked daemon nonce packets then
          [packet]
        else []) := by
  rw [dispatchedOf, chosenAfter_append, List.nil_append, chosenAfter,
    chosenAfter, List.append_nil]
  rfl

/-- What the packets that it has sent have made of a client. -/
structure Served
    (daemon : Daemon) (nonce : Bytes) (packets : List Bytes)
    (client : Client) : Prop where
  disconnected :
    client.disconnected = !isHandshake daemon nonce packets
  authentication :
    client.disconnected = false →
      client.authentication =
        stateAfter daemon (authentications packets).length
  authenticationNonce : client.authenticationNonce = nonce
  dispatched : client.dispatched = dispatchedOf daemon nonce packets

theorem served_clientCreate :
    Served daemon nonce [] (clientCreate daemon nonce) where
  disconnected := rfl
  authentication := by
    intro _
    cases locked : daemon.secret <;>
      simp [clientCreate, stateAfter, locked, authentications]
  authenticationNonce := rfl
  dispatched := rfl

/-- One packet: a client that is disconnected stays so. -/
theorem Served.append_disconnected
    {packets : List Bytes} {client : Client}
    (served : Served daemon nonce packets client)
    (gone : client.disconnected = true) (packet : Bytes) :
    Served daemon nonce (packets ++ [packet]) client := by
  have broken : isHandshake daemon nonce packets = false := by
    simpa [gone] using served.disconnected
  refine ⟨?_, ?_, served.authenticationNonce, ?_⟩
  · rw [isHandshake_append_singleton, broken, gone]
    rfl
  · intro connected
    rw [gone] at connected
    cases connected
  · rw [dispatchedOf_append_singleton, isUnlocked, broken, Bool.false_and,
      Bool.and_false, if_neg Bool.false_ne_true, List.append_nil]
    exact served.dispatched

/-- One packet of a client that is connected. -/
theorem Served.append_handlePacket
    {packets : List Bytes} {client : Client}
    (served : Served daemon nonce packets client)
    (connected : client.disconnected = false) (packet : Bytes) :
    Served daemon nonce (packets ++ [packet])
      (handlePacket daemon client packet) := by
  have handshake : isHandshake daemon nonce packets = true := by
    simpa [connected] using served.disconnected
  have state := served.authentication connected
  cases isRequest : isAuthentication packet with
  | false =>
      rw [handlePacket_other client isRequest]
      refine ⟨?_, ?_, served.authenticationNonce, ?_⟩
      · rw [isHandshake_append_singleton, isRequest, handshake]
        exact connected
      · intro _
        rw [authentications_append_singleton, isRequest]
        exact state
      · rw [dispatchedOf_append_singleton, isUnlocked, handshake, ← state,
          Bool.true_and]
        exact congrArg (· ++ _) served.dispatched
  | true =>
      have notFor : isForHardware packet = false := by
        simp only [isAuthentication, Bool.and_eq_true, beq_iff_eq] at isRequest
        simp [isForHardware, isRequest.1]
      have sameDispatched :
          client.dispatched = dispatchedOf daemon nonce (packets ++ [packet]) := by
        rw [dispatchedOf_append_singleton, notFor, Bool.false_and,
          if_neg Bool.false_ne_true, List.append_nil]
        exact served.dispatched
      have next :
          isHandshake daemon nonce (packets ++ [packet]) =
            expectedAt daemon nonce (authentications packets).length packet := by
        rw [isHandshake_append_singleton, isRequest, handshake]
        rfl
      rw [handlePacket_authentication isRequest state
        served.authenticationNonce]
      cases expected :
          expectedAt daemon nonce (authentications packets).length packet with
      | true =>
          rw [if_pos rfl]
          refine ⟨?_, ?_, served.authenticationNonce, sameDispatched⟩
          · rw [next, expected]
            exact connected
          · intro _
            rw [authentications_append_singleton, isRequest, if_pos rfl,
              List.length_append]
            rfl
      | false =>
          rw [if_neg Bool.false_ne_true]
          refine ⟨?_, ?_, served.authenticationNonce, sameDispatched⟩
          · rw [next, expected]
            rfl
          · intro impossible
            cases impossible

theorem served_servePackets (packets : List Bytes) :
    Served daemon nonce packets
      (servePackets daemon (clientCreate daemon nonce) packets) := by
  induction packets using List.reverseRecOn with
  | nil => exact served_clientCreate
  | append_singleton earlier packet inductionHypothesis =>
      rw [servePackets_append]
      simp only [servePackets, List.foldl_cons, List.foldl_nil]
      split
      next gone => exact inductionHypothesis.append_disconnected gone packet
      next connected =>
        exact
          inductionHypothesis.append_handlePacket
            (Bool.eq_false_iff.mpr connected) packet

/-- What the reads have dispatched. -/
theorem dispatched_run
    {reads : List Bytes}
    (guarded :
      EveryStep (clientHandleRead daemon) Reads (startReader daemon nonce)
        reads) :
    (runActions (clientHandleRead daemon) (startReader daemon nonce)
          reads).client.dispatched =
      dispatchedOf daemon nonce
        ((requestFraming daemon).drain reads.flatten).packets := by
  have served :=
    @served_servePackets daemon nonce
      ((requestFraming daemon).drain reads.flatten).packets
  rw [(runActions_hasRead (hasRead_start nonce) guarded).client,
    List.nil_append, serveReceived]
  split
  · exact served.dispatched
  · exact served.dispatched

variable (daemon nonce)

/-- However the stream is read, exactly the packets for a device that come
from an unlocked client are dispatched, in order, and the client is
disconnected as soon as the authentication does not go as expected or a header
is invalid. -/
theorem reads_dispatched
    (reads : List Bytes)
    (guarded :
      EveryStep (clientHandleRead daemon) Reads (startReader daemon nonce)
        reads) :
    (runActions (clientHandleRead daemon) (startReader daemon nonce)
          reads).client.dispatched =
        dispatchedOf daemon nonce
          ((requestFraming daemon).drain reads.flatten).packets ∧
      ((runActions (clientHandleRead daemon) (startReader daemon nonce)
            reads).client.disconnected = true ↔
        ((requestFraming daemon).drain reads.flatten).broken = true ∨
          isHandshake daemon nonce
              ((requestFraming daemon).drain reads.flatten).packets =
            false) := by
  have served :=
    @served_servePackets daemon nonce
      ((requestFraming daemon).drain reads.flatten).packets
  refine ⟨dispatched_run guarded, ?_⟩
  rw [(runActions_hasRead (hasRead_start nonce) guarded).client,
    List.nil_append, serveReceived]
  cases isBroken : ((requestFraming daemon).drain reads.flatten).broken with
  | true =>
      rw [if_pos rfl]
      exact iff_of_true rfl (Or.inl rfl)
  | false =>
      rw [if_neg Bool.false_ne_true, served.disconnected]
      simp

end

/-- A request for a nonce, the answer, and a request to a device, in three
reads. -/
def securedReads : List Bytes :=
  [[1, 0, 0, 0, 8],
    [1, 24, 0, 1, 0, 0, 0, 32, 2, 32, 0, 1, 2, 3, 4, 212, 114, 140, 168, 153,
      200, 254, 73, 127, 138, 31, 120],
    [218, 234, 202, 208, 48, 22, 136, 93, 5, 0, 0, 0, 8, 1, 48, 0]]

theorem reads_dispatched_secured :
    dispatchedOf Daemon.secured [11, 22, 33, 44]
          ((requestFraming Daemon.secured).drain securedReads.flatten).packets =
        [[5, 0, 0, 0, 8, 1, 48, 0]] ∧
      (runActions (clientHandleRead Daemon.secured)
            (startReader Daemon.secured [11, 22, 33, 44])
            securedReads).client.dispatched =
        dispatchedOf Daemon.secured [11, 22, 33, 44]
          ((requestFraming Daemon.secured).drain
            securedReads.flatten).packets :=
  ⟨by decide,
    (reads_dispatched Daemon.secured [11, 22, 33, 44] securedReads
      (by decide)).1⟩

end LtlsKitting.Bindings
