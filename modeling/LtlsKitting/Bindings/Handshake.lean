import LtlsKitting.Bindings.Connection

/-!
# The handshake

A program may authenticate before it makes its calls.  Whether the daemon
dispatches the calls is settled by the secrets of both sides; what it
dispatches are the calls of the program and nothing else, in the order in
which they were made.
-/

namespace LtlsKitting.Bindings

open LtlsKitting.Php LtlsKitting.Formats LtlsKitting.Interaction

/-! ## The calls of the program -/

/-- `get_authentication_nonce` -/
def getAuthenticationNonceCall : Call where
  uid := uidBrickDaemon
  functionId := functionGetAuthenticationNonce
  responseExpected := true
  form := []
  data := []

/-- `4B 20B` -/
def authenticateLayout : Layout :=
  [⟨4, 1⟩, ⟨20, 1⟩]

/-- `authenticate( client_nonce,digest )` -/
def authenticateCall (clientNonce digest : Bytes) : Call where
  uid := uidBrickDaemon
  functionId := functionAuthenticate
  responseExpected := true
  form := authenticateLayout
  data := [clientNonce.map UInt8.toNat, digest.map UInt8.toNat]

/-- The secret and the nonce of a program that authenticates. -/
structure Attempt where
  secret : Bytes
  clientNonce : Bytes

/-- `authenticate( secret )`, with the nonce that the daemon sends; or
nothing. -/
def openingCalls
    (daemon : Daemon) (nonce : Bytes) : Option Attempt → List Call
  | none => []
  | some attempt =>
      [getAuthenticationNonceCall,
        authenticateCall attempt.clientNonce
          (daemon.hmacSha1 attempt.secret (nonce ++ attempt.clientNonce))]

/-- Both sides have no secret, or secrets with the same digest. -/
def admits
    (daemon : Daemon) (nonce : Bytes) (attempt : Option Attempt) : Bool :=
  match attempt, daemon.secret with
  | none, none => true
  | some attempt, some secret =>
      daemon.hmacSha1 attempt.secret (nonce ++ attempt.clientNonce) ==
        daemon.hmacSha1 secret (nonce ++ attempt.clientNonce)
  | _, _ => false

theorem admits_none (daemon : Daemon) (nonce : Bytes) :
    admits daemon nonce none = daemon.secret.isNone := by
  simp only [admits]
  cases daemon.secret with
  | none => rfl
  | some secret => rfl

/-- The nonce and the digest have their sizes. -/
structure Attempt.Fits
    (daemon : Daemon) (nonce : Bytes) (attempt : Attempt) : Prop where
  clientNonce : attempt.clientNonce.length = 4
  digest :
    (daemon.hmacSha1 attempt.secret
      (nonce ++ attempt.clientNonce)).length = 20

example : deviceUid (bytes "2") = some uidBrickDaemon := by decide

/-- The nonce and the digest are in the packet. -/
theorem authenticate_parts
    {packet clientNonce digest : Bytes}
    (carries : CarriesCall packet (authenticateCall clientNonce digest))
    (nonceLength : clientNonce.length = 4) (digestLength : digest.length = 20) :
    (packet.drop 8).take 4 = clientNonce ∧
      (packet.drop 12).take 20 = digest := by
  obtain ⟨_, _, request⟩ := carries
  have packed :
      pack authenticateLayout
          [clientNonce.map UInt8.toNat, digest.map UInt8.toNat] =
        some (packet.drop 8) :=
    unpack_eq_some_iff.mp request.arguments
  have whole : packet.drop 8 = clientNonce ++ digest := by
    rw [pack] at packed
    split at packed
    next =>
      rw [← Option.some.inj packed]
      simp only [authenticateLayout, List.zipWith_cons_cons,
        List.zipWith_nil_right, PackedField.write_bytes, List.flatten_cons,
        List.flatten_nil, List.append_nil]
    next => cases packed
  have later : packet.drop 12 = digest := by
    rw [← List.drop_drop (i := 4) (j := 8), whole]
    exact List.drop_left' nonceLength
  refine ⟨?_, ?_⟩
  · rw [whole]
    exact List.take_left' nonceLength
  · rw [later, List.take_of_length_le (Nat.le_of_eq digestLength)]

/-! ## What the daemon makes of them -/

section

variable {daemon : Daemon} {nonce : Bytes} {packets : List Bytes}
  {calls : List Call}

theorem isUnlocked_congr
    {first second : List Bytes}
    (same : authentications first = authentications second) :
    isUnlocked daemon nonce first = isUnlocked daemon nonce second := by
  simp only [isUnlocked, isHandshake, same]

/-- Packets that are not requests of the authentication do not lock or unlock
a client. -/
theorem dispatchedOf_append_quiet
    (earlier : List Bytes) {later : List Bytes}
    (quiet : ∀ packet ∈ later, isAuthentication packet = false) :
    dispatchedOf daemon nonce (earlier ++ later) =
      dispatchedOf daemon nonce earlier ++
        (if isUnlocked daemon nonce earlier then later.filter isForHardware
        else []) := by
  induction later using List.reverseRecOn with
  | nil => simp
  | append_singleton sofar packet inductionHypothesis =>
      have quietSofar : ∀ other ∈ sofar, isAuthentication other = false :=
        fun other member => quiet other (List.mem_append_left _ member)
      have none : authentications sofar = [] :=
        List.filter_eq_nil_iff.mpr
          (fun other member => by simp [quietSofar other member])
      have same :
          isUnlocked daemon nonce (earlier ++ sofar) =
            isUnlocked daemon nonce earlier := by
        apply isUnlocked_congr
        rw [authentications, List.filter_append]
        exact (congrArg (_ ++ ·) none).trans (List.append_nil _)
      rw [← List.append_assoc, dispatchedOf_append_singleton,
        inductionHypothesis quietSofar, same, List.filter_append]
      cases isUnlocked daemon nonce earlier with
      | false => simp
      | true =>
          cases forHardware : isForHardware packet <;> simp [forHardware]

/-- Nothing is dispatched that is not for a device. -/
theorem dispatchedOf_eq_nil
    (others : ∀ packet ∈ packets, isForHardware packet = false) :
    dispatchedOf daemon nonce packets = [] := by
  induction packets using List.reverseRecOn with
  | nil => rfl
  | append_singleton earlier packet inductionHypothesis =>
      rw [dispatchedOf_append_singleton,
        inductionHypothesis
          (fun other member => others other (List.mem_append_left _ member)),
        others packet (by simp)]
      rfl

theorem IsProbe.not_isAuthentication
    {packet : Bytes} (probe : IsProbe packet) :
    isAuthentication packet = false := by
  obtain ⟨_, _, request⟩ := probe
  rw [isAuthentication, request.uid]
  rfl

theorem isForHardware_of_isProbe
    {packet : Bytes} (probe : isProbe packet = true) :
    isForHardware packet = false := by
  rw [isProbe, beq_iff_eq] at probe
  simp [isForHardware, probe]

/-- The requests of the authentication among packets with probes in
between. -/
theorem Interleaves.authentications
    (interleaves : Interleaves packets calls) :
    authentications packets =
      (packets.filter (fun packet => !isProbe packet)).filter
        isAuthentication := by
  rw [Bindings.authentications, List.filter_filter]
  refine List.filter_congr ?_
  intro packet member
  cases probe : isProbe packet with
  | false => simp
  | true =>
      have isProbe := interleaves.probes packet member probe
      simp [isProbe.not_isAuthentication]

theorem Interleaves.append
    {second : List Call} (interleaves : Interleaves packets (calls ++ second)) :
    ∃ earlier later,
      packets = earlier ++ later ∧
        Interleaves earlier calls ∧ Interleaves later second := by
  have first := List.forall₂_take_append _ _ _ interleaves.calls
  have others := List.forall₂_drop_append _ _ _ interleaves.calls
  obtain ⟨earlier, later, whole, sameEarlier, sameLater⟩ :=
    List.filter_eq_append_iff.mp
      (List.take_append_drop calls.length
        (packets.filter (fun packet => !isProbe packet))).symm
  refine ⟨earlier, later, whole, ⟨?_, ?_⟩, ⟨?_, ?_⟩⟩
  · rw [sameEarlier]
    exact first
  · intro packet member
    exact interleaves.probes packet (whole ▸ List.mem_append_left _ member)
  · rw [sameLater]
    exact others
  · intro packet member
    exact interleaves.probes packet (whole ▸ List.mem_append_right _ member)

theorem asksNonce_of_carries
    {packet : Bytes} (carries : CarriesCall packet getAuthenticationNonceCall) :
    isAuthentication packet = true ∧ asksNonce packet = true := by
  obtain ⟨_, _, request⟩ := carries
  have length : getLengthFromData packet = 8 :=
    request.lengthByte.trans request.length
  rw [isAuthentication, asksNonce, request.uid, request.functionId, length]
  exact ⟨rfl, rfl⟩

/-- The digest is compared with the one over both nonces. -/
theorem answersNonce_of_carries
    {packet : Bytes} {attempt : Attempt} (fits : attempt.Fits daemon nonce)
    (carries :
      CarriesCall packet
        (authenticateCall attempt.clientNonce
          (daemon.hmacSha1 attempt.secret (nonce ++ attempt.clientNonce)))) :
    isAuthentication packet = true ∧
      answersNonce daemon nonce packet =
        (daemon.hmacSha1 attempt.secret (nonce ++ attempt.clientNonce) ==
          daemon.hmacSha1 (daemon.secret.getD [])
            (nonce ++ attempt.clientNonce)) := by
  obtain ⟨sentNonce, sentDigest⟩ :=
    authenticate_parts carries fits.clientNonce fits.digest
  obtain ⟨_, _, request⟩ := carries
  have length : getLengthFromData packet = 32 :=
    request.lengthByte.trans request.length
  rw [isAuthentication, answersNonce, expectedDigest, sentNonce, sentDigest,
    request.uid, request.functionId, length]
  exact ⟨rfl, Bool.true_and _⟩

/-- The opening unlocks the client exactly if the daemon admits it, and it is
not for a device. -/
theorem Interleaves.opening
    {attempt : Option Attempt}
    (interleaves : Interleaves packets (openingCalls daemon nonce attempt))
    (fits : ∀ given ∈ attempt, given.Fits daemon nonce) :
    isUnlocked daemon nonce packets = admits daemon nonce attempt := by
  have requests := interleaves.authentications
  have carried := interleaves.calls
  cases attempt with
  | none =>
      rw [List.forall₂_nil_right_iff.mp carried] at requests
      simp only [isUnlocked, isHandshake, requests, admits]
      cases locked : daemon.secret with
      | none => simp [stateAfter, locked]
      | some secret => simp [stateAfter, locked]
  | some given =>
      obtain ⟨ask, others, askCarries, othersCarry, isFilter⟩ :=
        List.forall₂_cons_right_iff.mp carried
      obtain ⟨answer, none, answerCarries, isNone, isOthers⟩ :=
        List.forall₂_cons_right_iff.mp othersCarry
      obtain ⟨askIs, asks⟩ := asksNonce_of_carries askCarries
      obtain ⟨answerIs, answers⟩ :=
        answersNonce_of_carries (fits given rfl) answerCarries
      rw [List.forall₂_nil_right_iff.mp isNone] at isOthers
      rw [isFilter, isOthers, List.filter_cons_of_pos askIs,
        List.filter_cons_of_pos answerIs, List.filter_nil] at requests
      simp only [isUnlocked, isHandshake, requests, List.zipIdx_cons,
        List.zipIdx_nil, List.all_cons, List.all_nil, expectedAt, asks,
        answers, admits]
      cases locked : daemon.secret with
      | none => simp
      | some secret => simp [stateAfter, locked]

/-- Nothing in the opening is for a device. -/
theorem not_isForHardware_opening
    {attempt : Option Attempt}
    (interleaves : Interleaves packets (openingCalls daemon nonce attempt))
    {packet : Bytes} (member : packet ∈ packets) :
    isForHardware packet = false := by
  have toDaemon :
      ∀ call ∈ openingCalls daemon nonce attempt,
        call.uid = uidBrickDaemon := by
    cases attempt with
    | none =>
        intro call isCall
        cases isCall
    | some given =>
        intro call isCall
        simp only [openingCalls, List.mem_cons, List.not_mem_nil, or_false]
          at isCall
        rcases isCall with rfl | rfl <;> rfl
  rcases interleaves.cases member with probe | ⟨call, isCall, _, _, request⟩
  · exact isForHardware_of_isProbe probe.isProbe
  · rw [isForHardware, request.uid, toDaemon call isCall]
    rfl

/-- Of calls of devices, everything but the probes is for the hardware. -/
theorem Interleaves.forDevices
    (interleaves : Interleaves packets calls)
    (forDevices : ∀ call ∈ calls, call.uid ≠ uidBrickDaemon) :
    (∀ packet ∈ packets, isAuthentication packet = false) ∧
      packets.filter isForHardware =
        packets.filter (fun packet => !isProbe packet) := by
  have notDaemon :
      ∀ packet ∈ packets, getUidFromData packet ≠ uidBrickDaemon := by
    intro packet member
    rcases interleaves.cases member with
      ⟨_, _, request⟩ | ⟨call, isCall, _, _, request⟩
    · rw [request.uid]
      decide
    · rw [request.uid]
      exact forDevices call isCall
  constructor
  · intro packet member
    simp [isAuthentication, notDaemon packet member]
  · refine List.filter_congr ?_
    intro packet member
    simp [isForHardware, isProbe, notDaemon packet member, bne]

/-- The packets of a program that are dispatched. -/
theorem Interleaves.dispatchedOf
    {attempt : Option Attempt}
    (interleaves :
      Interleaves packets (openingCalls daemon nonce attempt ++ calls))
    (fits : ∀ given ∈ attempt, given.Fits daemon nonce)
    (forDevices : ∀ call ∈ calls, call.uid ≠ uidBrickDaemon) :
    List.Forall₂ CarriesCall (dispatchedOf daemon nonce packets)
      (if admits daemon nonce attempt then calls else []) := by
  obtain ⟨earlier, later, whole, opening, rest⟩ := interleaves.append
  obtain ⟨quiet, hardware⟩ := rest.forDevices forDevices
  rw [whole, dispatchedOf_append_quiet earlier quiet,
    dispatchedOf_eq_nil (fun _ member => not_isForHardware_opening opening member),
    opening.opening fits, List.nil_append, hardware]
  cases admits daemon nonce attempt with
  | true => exact rest.calls
  | false => exact .nil

/-! ## Runs -/

theorem fits_openingCalls
    {attempt : Option Attempt}
    (fits : ∀ given ∈ attempt, given.Fits daemon nonce) :
    ∀ call ∈ openingCalls daemon nonce attempt, call.Fits := by
  cases attempt with
  | none =>
      intro call member
      cases member
  | some given =>
      have sizes := fits given rfl
      intro call member
      simp only [openingCalls, List.mem_cons, List.not_mem_nil, or_false]
        at member
      rcases member with rfl | rfl
      · exact
          ⟨(by decide : uidBrickDaemon < 2 ^ 32),
            (by decide : functionGetAuthenticationNonce < 256),
            (by decide :
              functionGetAuthenticationNonce ≠ functionDisconnectProbe),
            (by decide : functionGetAuthenticationNonce ≠ 0),
            (by decide : 8 + Layout.size [] ≤ packetSize), .nil⟩
      · exact
          ⟨(by decide : uidBrickDaemon < 2 ^ 32),
            (by decide : functionAuthenticate < 256),
            (by decide : functionAuthenticate ≠ functionDisconnectProbe),
            (by decide : functionAuthenticate ≠ 0),
            (by decide : 8 + Layout.size authenticateLayout ≤ packetSize),
            .cons (.bytes sizes.clientNonce)
              (.cons (.bytes sizes.digest) .nil)⟩

theorem dispatchedOf_beginning {first second : List Bytes}
    (begins : first <+: second) :
    dispatchedOf daemon nonce first <+: dispatchedOf daemon nonce second := by
  obtain ⟨rest, whole⟩ := begins
  rw [← whole]
  simp only [Bindings.dispatchedOf]
  rw [chosenAfter_append]
  exact List.prefix_append _ _

end

/-- The calls of a program that reach the hardware. -/
def admittedCalls
    (daemon : Daemon) (nonce : Bytes) (attempt : Option Attempt)
    (calls : List Call) : List Call :=
  if admits daemon nonce attempt then calls else []

/-- A program makes its calls, after it has authenticated or without. -/
structure Makes
    (daemon : Daemon) (nonce : Bytes) (attempt : Option Attempt)
    (calls : List Call) (actions : List ConnectionAction) : Prop where
  actions :
    actions.filterMap ConnectionAction.call? =
      openingCalls daemon nonce attempt ++ calls
  opening : ∀ given ∈ attempt, given.Fits daemon nonce
  fit : ∀ call ∈ calls, call.Fits
  forDevices : ∀ call ∈ calls, call.uid ≠ uidBrickDaemon

section

variable {daemon : Daemon} {nonce : Bytes} {attempt : Option Attempt}
  {calls : List Call} {actions : List ConnectionAction}

theorem Makes.interleaves
    (makes : Makes daemon nonce attempt calls actions) :
    Interleaves (runActions Connection.step ipConnection actions).sent
        (openingCalls daemon nonce attempt ++ calls) ∧
      ∀ call ∈ openingCalls daemon nonce attempt ++ calls, call.Fits := by
  have fit :
      ∀ call ∈ openingCalls daemon nonce attempt ++ calls, call.Fits := by
    intro call member
    rcases List.mem_append.mp member with opening | later
    · exact fits_openingCalls makes.opening call opening
    · exact makes.fit call later
  have fitActions :
      ∀ call ∈ actions.filterMap ConnectionAction.call?, call.Fits := by
    rw [makes.actions]
    exact fit
  have sent := (runActions_hasSent hasSent_ipConnection fitActions).sent
  rw [List.nil_append, makes.actions] at sent
  exact ⟨sent, fit⟩

theorem Makes.dispatched
    (makes : Makes daemon nonce attempt calls actions)
    (accepts : daemon.check.Accepts) {reads : List Bytes}
    (guarded :
      EveryStep (clientHandleRead daemon) Reads (startReader daemon nonce)
        reads)
    (arrived :
      reads.flatten =
        (runActions Connection.step ipConnection actions).sent.flatten) :
    List.Forall₂ CarriesCall
      (runActions (clientHandleRead daemon) (startReader daemon nonce)
          reads).client.dispatched
      (admittedCalls daemon nonce attempt calls) := by
  obtain ⟨interleaves, fit⟩ := makes.interleaves
  rw [dispatched_run guarded, arrived, interleaves.drain accepts fit]
  exact interleaves.dispatchedOf makes.opening makes.forDevices

end

/-- However the two threads alternate and however the stream is read, the
daemon dispatches calls of the program only, each at most once and in the
order in which they were made, and none of a program that it does not admit.
When everything is read, it has dispatched all calls of a program that it
admits. -/
theorem calls_dispatched
    (daemon : Daemon) (accepts : daemon.check.Accepts) (nonce : Bytes)
    (attempt : Option Attempt) (calls : List Call)
    (actions : List ConnectionAction)
    (makes : Makes daemon nonce attempt calls actions)
    (reads : List Bytes)
    (guarded :
      EveryStep (clientHandleRead daemon) Reads (startReader daemon nonce)
        reads)
    (arrived :
      reads.flatten <+:
        (runActions Connection.step ipConnection actions).sent.flatten) :
    (∃ count,
      List.Forall₂ CarriesCall
        (runActions (clientHandleRead daemon) (startReader daemon nonce)
            reads).client.dispatched
        ((admittedCalls daemon nonce attempt calls).take count)) ∧
      (reads.flatten =
          (runActions Connection.step ipConnection actions).sent.flatten →
        List.Forall₂ CarriesCall
          (runActions (clientHandleRead daemon) (startReader daemon nonce)
              reads).client.dispatched
          (admittedCalls daemon nonce attempt calls)) := by
  obtain ⟨interleaves, fit⟩ := makes.interleaves
  refine ⟨?_, makes.dispatched accepts guarded⟩
  obtain ⟨rest, whole⟩ := arrived
  have begins :
      ((requestFraming daemon).drain reads.flatten).packets <+:
        (runActions Connection.step ipConnection actions).sent := by
    have packets :=
      @Framing.packets_drain_beginning _ (requestFraming daemon) reads.flatten rest
    rw [whole, interleaves.drain accepts fit] at packets
    exact packets
  obtain ⟨more, isMore⟩ :=
    @dispatchedOf_beginning daemon nonce _ _ begins
  have all := interleaves.dispatchedOf makes.opening makes.forDevices
  rw [← isMore] at all
  refine
    ⟨(dispatchedOf daemon nonce
      ((requestFraming daemon).drain reads.flatten).packets).length, ?_⟩
  have firsts := List.forall₂_take
    (dispatchedOf daemon nonce
      ((requestFraming daemon).drain reads.flatten).packets).length all
  rw [List.take_left] at firsts
  rw [dispatched_run guarded]
  exact firsts

theorem accepts_plain : HeaderCheck.plain.Accepts := by
  intro header _ long short function sequenceNumber
  simp [HeaderCheck.plain, long, short, function, sequenceNumber]

def openedAttempt : Attempt where
  secret := bytes "ltls"
  clientNonce := [1, 2, 3, 4]

/-- A call without arguments. -/
def plainCall : Call where
  uid := 5
  functionId := 1
  responseExpected := false
  form := []
  data := []

/-- The program authenticates and makes two calls, with probes in between. -/
def openedActions : List ConnectionAction :=
  [.sendProbe, .sendRequest getAuthenticationNonceCall, .createProbe,
    .sendProbe,
    .sendRequest
      (authenticateCall [1, 2, 3, 4]
        [212, 114, 140, 168, 153, 200, 254, 73, 127, 138, 31, 120, 218, 234,
          202, 208, 48, 22, 136, 93]),
    .sendRequest plainCall, .sendProbe, .sendRequest plainCall]

/-- Both calls are dispatched, and until everything is read, a beginning of
them. -/
theorem calls_dispatched_opened :
    admittedCalls Daemon.secured [11, 22, 33, 44] (some openedAttempt)
          [plainCall, plainCall] =
        [plainCall, plainCall] ∧
      (∃ count,
        List.Forall₂ CarriesCall
          (runActions (clientHandleRead Daemon.secured)
              (startReader Daemon.secured [11, 22, 33, 44])
              ((runActions Connection.step ipConnection
                openedActions).sent.take 4)).client.dispatched
          ((admittedCalls Daemon.secured [11, 22, 33, 44]
            (some openedAttempt) [plainCall, plainCall]).take count)) := by
  have makes :
      Makes Daemon.secured [11, 22, 33, 44] (some openedAttempt)
        [plainCall, plainCall] openedActions := by
    refine ⟨rfl, ?_, ?_, ?_⟩
    · intro given isGiven
      rw [← Option.some.inj isGiven]
      exact ⟨rfl, rfl⟩
    · intro call member
      have same : call = plainCall := by simpa using member
      rw [same]
      exact
        ⟨(by decide : 5 < 2 ^ 32), (by decide : 1 < 256),
          (by decide : 1 ≠ functionDisconnectProbe), (by decide : 1 ≠ 0),
          (by decide : 8 + Layout.size [] ≤ packetSize), .nil⟩
    · intro call member
      have same : call = plainCall := by simpa using member
      rw [same]
      exact (by decide : 5 ≠ uidBrickDaemon)
  refine ⟨rfl, ?_⟩
  exact
    (calls_dispatched Daemon.secured accepts_plain [11, 22, 33, 44]
      (some openedAttempt) [plainCall, plainCall] openedActions makes
      ((runActions Connection.step ipConnection openedActions).sent.take 4)
      (by decide) (by decide)).1

end LtlsKitting.Bindings
