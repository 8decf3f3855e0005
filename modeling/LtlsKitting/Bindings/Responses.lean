import LtlsKitting.Bindings.Packets
import LtlsKitting.Interaction.Runs
import Mathlib.Logic.Function.Basic

/-!
# Responses

Any number of threads call functions of devices and wait for the responses.
The lock of a device lets one of them wait at a time; a receive thread
compares each packet with what the device expects and puts it into the queue
of the device.  The comparison and the queue are not locked, so that a packet
may be put there after its caller has given up, and the next one compares it
again.  Sequence numbers return after fifteen requests.
-/

namespace LtlsKitting.Bindings

open LtlsKitting.Php LtlsKitting.Interaction

/-! ## The threads -/

/-- A request, with the number of requests before it. -/
structure Request where
  index : Nat
  uid : Nat
  functionId : Nat
  sequenceNumber : Nat
  deriving DecidableEq, Repr

/-- A packet and the request that it responds to, which no thread reads. -/
structure Arrival where
  answers : Request
  packet : Bytes
  deriving DecidableEq, Repr

/-- The fields of a device that are used in `send_request`. -/
structure DeviceState (ι : Type) where
  requestLock : Option ι
  expectedFunctionId : Option Nat
  expectedSequenceNumber : Option Nat
  responseQueue : List Arrival

/-- Where a thread is in `send_request`. -/
inductive CallPlace where
  | outside
  | numbered (request : Request)
  | locked (request : Request)
  | function (request : Request)
  | waiting (request : Request)
  | leaving (request : Request)
  | cleared (request : Request)
  deriving DecidableEq, Repr

def CallPlace.request? : CallPlace → Option Request
  | .outside => none
  | .numbered request | .locked request | .function request
  | .waiting request | .leaving request | .cleared request => some request

/-- Where the receive thread is in `handle_response`. -/
inductive Receiver where
  | idle
  /-- The function of the packet is expected. -/
  | compared (arrival : Arrival)
  /-- Its sequence number, too. -/
  | expected (arrival : Arrival)

def Receiver.arrival? : Receiver → Option Arrival
  | .idle => none
  | .compared arrival | .expected arrival => some arrival

/-- The connection with its callers and the receive thread, what has arrived,
and what was returned for which request. -/
structure Exchange (ι : Type) where
  nextSequenceNumber : Nat
  requests : List Request
  devices : Nat → DeviceState ι
  threads : ι → CallPlace
  receiver : Receiver
  arrived : List Request
  returned : List (Request × Arrival)

def exchange {ι : Type} : Exchange ι where
  nextSequenceNumber := 0
  requests := []
  devices := fun _ => ⟨none, none, none, []⟩
  threads := fun _ => .outside
  receiver := .idle
  arrived := []
  returned := []

inductive ExchangeAction (ι : Type) where
  /-- `create_packet_header` of a call that expects a response. -/
  | number (thread : ι) (uid functionId : Nat)
  /-- A request that expects none takes a sequence number. -/
  | pass (uid functionId : Nat)
  | lock (thread : ι)
  | expectFunction (thread : ι)
  | expectNumber (thread : ι)
  /-- The next response of the queue is compared. -/
  | take (thread : ι)
  /-- No response has come in time, or the connection is lost. -/
  | giveUp (thread : ι)
  | clearFunction (thread : ι)
  | clearNumber (thread : ι)
  /-- A packet arrives, and its function is compared. -/
  | handle (arrival : Arrival)
  /-- Its sequence number is compared. -/
  | compare
  | put

namespace Exchange

variable {ι : Type} [DecidableEq ι]

def nextRequest (state : Exchange ι) (uid functionId : Nat) : Request where
  index := state.requests.length
  uid := uid
  functionId := functionId
  sequenceNumber := (getNextSequenceNumber state.nextSequenceNumber).1

def numbered (state : Exchange ι) (uid functionId : Nat) : Exchange ι :=
  { state with
    nextSequenceNumber := (getNextSequenceNumber state.nextSequenceNumber).2
    requests := state.requests ++ [state.nextRequest uid functionId] }

def moveTo (state : Exchange ι) (thread : ι) (place : CallPlace) :
    Exchange ι :=
  { state with threads := Function.update state.threads thread place }

def change
    (state : Exchange ι) (uid : Nat)
    (change : DeviceState ι → DeviceState ι) : Exchange ι :=
  { state with
    devices := Function.update state.devices uid (change (state.devices uid)) }

section

variable {state : Exchange ι} {thread other : ι} {uid : Nat}
variable {place : CallPlace} {change : DeviceState ι → DeviceState ι}

@[simp]
theorem threads_moveTo_self :
    (state.moveTo thread place).threads thread = place :=
  Function.update_self ..

theorem threads_moveTo_of_ne (different : other ≠ thread) :
    (state.moveTo thread place).threads other = state.threads other :=
  Function.update_of_ne different ..

omit [DecidableEq ι] in
@[simp]
theorem devices_change_self :
    (state.change uid change).devices uid = change (state.devices uid) :=
  Function.update_self ..

omit [DecidableEq ι] in
theorem devices_change_of_ne {other : Nat} (different : other ≠ uid) :
    (state.change uid change).devices other = state.devices other :=
  Function.update_of_ne different ..

end

/-- The packet is what the caller waits for. -/
def isAwaited (request : Request) (packet : Bytes) : Bool :=
  request.functionId == getFunctionIdFromData packet &&
    request.sequenceNumber == getSequenceNumberFromData packet

/-- The thread takes the next response out of the queue. -/
def taken (state : Exchange ι) (thread : ι) (request : Request) :
    Exchange ι :=
  match (state.devices request.uid).responseQueue with
  | [] => state
  | arrival :: rest =>
      let next :=
        state.change request.uid
          (fun device => { device with responseQueue := rest })
      if isAwaited request arrival.packet then
        { next.moveTo thread (.leaving request) with
          returned := state.returned ++ [(request, arrival)] }
      else
        next

/-- A thread that is not at the place of the action does nothing. -/
def step (state : Exchange ι) : ExchangeAction ι → Exchange ι
  | .number thread uid functionId =>
      match state.threads thread with
      | .outside =>
          (state.numbered uid functionId).moveTo thread
            (.numbered (state.nextRequest uid functionId))
      | _ => state
  | .pass uid functionId => state.numbered uid functionId
  | .lock thread =>
      match state.threads thread with
      | .numbered request =>
          if (state.devices request.uid).requestLock.isNone then
            (state.change request.uid
              (fun device => { device with requestLock := some thread })).moveTo
              thread (.locked request)
          else
            state
      | _ => state
  | .expectFunction thread =>
      match state.threads thread with
      | .locked request =>
          (state.change request.uid
            (fun device =>
              { device with
                expectedFunctionId := some request.functionId })).moveTo
            thread (.function request)
      | _ => state
  | .expectNumber thread =>
      match state.threads thread with
      | .function request =>
          (state.change request.uid
            (fun device =>
              { device with
                expectedSequenceNumber :=
                  some request.sequenceNumber })).moveTo
            thread (.waiting request)
      | _ => state
  | .take thread =>
      match state.threads thread with
      | .waiting request => state.taken thread request
      | _ => state
  | .giveUp thread =>
      match state.threads thread with
      | .waiting request => state.moveTo thread (.leaving request)
      | _ => state
  | .clearFunction thread =>
      match state.threads thread with
      | .leaving request =>
          (state.change request.uid
            (fun device => { device with expectedFunctionId := none })).moveTo
            thread (.cleared request)
      | _ => state
  | .clearNumber thread =>
      match state.threads thread with
      | .cleared request =>
          (state.change request.uid
            (fun device =>
              { device with
                expectedSequenceNumber := none
                requestLock := none })).moveTo
            thread .outside
      | _ => state
  | .handle arrival =>
      match state.receiver with
      | .idle =>
          let device := state.devices (getUidFromData arrival.packet)
          { state with
            receiver :=
              if getSequenceNumberFromData arrival.packet != 0 &&
                  device.expectedFunctionId ==
                    some (getFunctionIdFromData arrival.packet) then
                .compared arrival
              else
                .idle
            arrived := state.arrived ++ [arrival.answers] }
      | _ => state
  | .compare =>
      match state.receiver with
      | .compared arrival =>
          let device := state.devices (getUidFromData arrival.packet)
          { state with
            receiver :=
              if device.expectedSequenceNumber ==
                  some (getSequenceNumberFromData arrival.packet) then
                .expected arrival
              else
                .idle }
      | _ => state
  | .put =>
      match state.receiver with
      | .expected arrival =>
          { state.change (getUidFromData arrival.packet)
              (fun device =>
                { device with
                  responseQueue := device.responseQueue ++ [arrival] }) with
            receiver := .idle }
      | _ => state

end Exchange

/-- The packet has the device, the function and the sequence number of a
request that was made. -/
structure Arrival.Fits (requests : List Request) (arrival : Arrival) :
    Prop where
  known : arrival.answers ∈ requests
  uid : getUidFromData arrival.packet = arrival.answers.uid
  functionId :
    getFunctionIdFromData arrival.packet = arrival.answers.functionId
  sequenceNumber :
    getSequenceNumberFromData arrival.packet = arrival.answers.sequenceNumber

instance Arrival.decidableFits (requests : List Request) (arrival : Arrival) :
    Decidable (arrival.Fits requests) :=
  decidable_of_iff
    (arrival.answers ∈ requests ∧
      getUidFromData arrival.packet = arrival.answers.uid ∧
        getFunctionIdFromData arrival.packet = arrival.answers.functionId ∧
          getSequenceNumberFromData arrival.packet =
            arrival.answers.sequenceNumber)
    ⟨fun ⟨known, uid, functionId, number⟩ => ⟨known, uid, functionId, number⟩,
      fun fits => ⟨fits.known, fits.uid, fits.functionId, fits.sequenceNumber⟩⟩

theorem Arrival.Fits.append
    {requests more : List Request} {arrival : Arrival}
    (fits : arrival.Fits requests) : arrival.Fits (requests ++ more) :=
  ⟨List.mem_append_left _ fits.known, fits.uid, fits.functionId,
    fits.sequenceNumber⟩

/-- A packet responds to a request, and no other one does. -/
def ExchangeAction.Allowed {ι : Type} (state : Exchange ι) :
    ExchangeAction ι → Prop
  | .handle arrival =>
      arrival.Fits state.requests ∧ arrival.answers ∉ state.arrived
  | _ => True

instance ExchangeAction.decidableAllowed {ι : Type}
    (state : Exchange ι) (action : ExchangeAction ι) :
    Decidable (action.Allowed state) :=
  match action with
  | .handle arrival =>
      inferInstanceAs
        (Decidable
          (arrival.Fits state.requests ∧ arrival.answers ∉ state.arrived))
  | .number .. | .pass .. | .lock _ | .expectFunction _ | .expectNumber _
  | .take _ | .giveUp _ | .clearFunction _ | .clearNumber _ | .compare
  | .put => inferInstanceAs (Decidable True)

namespace Exchange

variable {ι : Type} [DecidableEq ι] {state : Exchange ι}

/-! ## Numbers -/

/-- Requests, packets and what was returned fit together. -/
structure Matched (state : Exchange ι) : Prop where
  counter : state.nextSequenceNumber = state.requests.length % 15
  numbers :
    ∀ request ∈ state.requests,
      state.requests[request.index]? = some request ∧
        request.sequenceNumber = request.index % 15 + 1
  threads :
    ∀ thread request, (state.threads thread).request? = some request →
      request ∈ state.requests
  queues :
    ∀ uid, ∀ arrival ∈ (state.devices uid).responseQueue,
      arrival.Fits state.requests ∧ arrival.answers.uid = uid
  receiver :
    ∀ arrival ∈ state.receiver.arrival?, arrival.Fits state.requests
  returned :
    ∀ entry ∈ state.returned,
      entry.1 ∈ state.requests ∧ entry.2.Fits state.requests ∧
        entry.2.answers.uid = entry.1.uid ∧
        entry.2.answers.functionId = entry.1.functionId ∧
        entry.2.answers.sequenceNumber = entry.1.sequenceNumber

theorem Matched.moveTo
    (matched : state.Matched) (thread : ι) {place : CallPlace}
    (known : ∀ request, place.request? = some request →
      request ∈ state.requests) :
    (state.moveTo thread place).Matched := by
  refine ⟨matched.counter, matched.numbers, ?_, matched.queues,
    matched.receiver, matched.returned⟩
  intro other request isRequest
  by_cases same : other = thread
  · rw [same, threads_moveTo_self] at isRequest
    exact known request isRequest
  · rw [threads_moveTo_of_ne same] at isRequest
    exact matched.threads other request isRequest

/-- A thread goes on with its request. -/
theorem Matched.goOn
    (matched : state.Matched) {thread : ι} {before after : CallPlace}
    (isBefore : state.threads thread = before)
    (same : ∀ request, after.request? = some request →
      before.request? = some request) :
    (state.moveTo thread after).Matched :=
  matched.moveTo thread
    (fun request isRequest =>
      matched.threads thread request
        (by rw [isBefore]; exact same request isRequest))

omit [DecidableEq ι] in
theorem Matched.change
    (matched : state.Matched) (uid : Nat)
    {change : DeviceState ι → DeviceState ι}
    (fits :
      ∀ arrival ∈ (change (state.devices uid)).responseQueue,
        arrival.Fits state.requests ∧ arrival.answers.uid = uid) :
    (state.change uid change).Matched := by
  refine ⟨matched.counter, matched.numbers, matched.threads, ?_,
    matched.receiver, matched.returned⟩
  intro other arrival queued
  by_cases same : other = uid
  · rw [same, devices_change_self] at queued
    rw [same]
    exact fits arrival queued
  · rw [devices_change_of_ne same] at queued
    exact matched.queues other arrival queued

/-- A thread goes on with its request and changes fields of the device, but
not the queue. -/
theorem Matched.changeAndGoOn
    (matched : state.Matched) {thread : ι} {before after : CallPlace}
    (isBefore : state.threads thread = before)
    (same : ∀ request, after.request? = some request →
      before.request? = some request)
    (uid : Nat) {change : DeviceState ι → DeviceState ι}
    (kept :
      (change (state.devices uid)).responseQueue =
        (state.devices uid).responseQueue) :
    ((state.change uid change).moveTo thread after).Matched := by
  have changed : (state.change uid change).Matched :=
    matched.change uid (by rw [kept]; exact matched.queues uid)
  exact @Matched.goOn ι _ _ changed thread before after isBefore same

omit [DecidableEq ι] in
/-- The next request takes the next number. -/
theorem Matched.numbered
    (matched : state.Matched) (uid functionId : Nat) :
    (state.numbered uid functionId).Matched := by
  refine ⟨?_, ?_, ?_, ?_, ?_, ?_⟩
  · simp only [Exchange.numbered, getNextSequenceNumber, matched.counter,
      List.length_append, List.length_singleton]
    omega
  · intro request member
    rcases List.mem_append.mp member with old | new
    · obtain ⟨found, number⟩ := matched.numbers request old
      refine ⟨?_, number⟩
      have inside : request.index < state.requests.length :=
        (List.getElem?_eq_some_iff.mp found).1
      rw [Exchange.numbered, List.getElem?_append_left inside]
      exact found
    · rw [List.mem_singleton.mp new]
      refine ⟨?_, ?_⟩
      · simp [Exchange.numbered, nextRequest]
      · simp only [nextRequest, getNextSequenceNumber, matched.counter]
  · intro thread request isRequest
    exact List.mem_append_left _ (matched.threads thread request isRequest)
  · intro device arrival queued
    obtain ⟨fits, same⟩ := matched.queues device arrival queued
    exact ⟨fits.append, same⟩
  · intro arrival isReceived
    exact (matched.receiver arrival isReceived).append
  · intro entry member
    obtain ⟨known, fits, same⟩ := matched.returned entry member
    exact ⟨List.mem_append_left _ known, fits.append, same⟩

/-- What a thread takes out of the queue is a response for its request. -/
theorem Matched.taken
    (matched : state.Matched) {thread : ι} {request : Request}
    (waiting : state.threads thread = .waiting request) :
    (state.taken thread request).Matched := by
  have known : request ∈ state.requests :=
    matched.threads thread request (by rw [waiting]; rfl)
  simp only [Exchange.taken]
  split
  next => exact matched
  next arrival rest queue =>
    have next :
        (state.change request.uid
          (fun device => { device with responseQueue := rest })).Matched := by
      apply matched.change
      intro other queued
      apply matched.queues request.uid other
      rw [queue]
      exact List.mem_cons_of_mem _ queued
    have first :
        arrival.Fits state.requests ∧ arrival.answers.uid = request.uid := by
      apply matched.queues request.uid arrival
      rw [queue]
      exact List.mem_cons_self ..
    split
    next awaited =>
      simp only [isAwaited, Bool.and_eq_true, beq_iff_eq] at awaited
      have moved :=
        @Matched.goOn ι _ _ next thread (.waiting request) (.leaving request)
          waiting (fun _ => id)
      refine ⟨moved.counter, moved.numbers, moved.threads, moved.queues,
        moved.receiver, ?_⟩
      intro entry member
      rcases List.mem_append.mp member with old | new
      · exact matched.returned entry old
      · rw [List.mem_singleton.mp new]
        exact
          ⟨known, first.1, first.2,
            first.1.functionId.symm.trans awaited.1.symm,
            first.1.sequenceNumber.symm.trans awaited.2.symm⟩
    next => exact next

theorem Matched.step
    (matched : state.Matched) {action : ExchangeAction ι}
    (allowed : action.Allowed state) : (state.step action).Matched := by
  cases action with
  | number thread uid functionId =>
      simp only [Exchange.step]
      split
      next =>
        apply (matched.numbered uid functionId).moveTo
        rintro request ⟨⟩
        exact List.mem_append_right _ (List.mem_singleton.mpr rfl)
      next => exact matched
  | pass uid functionId => exact matched.numbered uid functionId
  | lock thread =>
      simp only [Exchange.step]
      split
      next request isNumbered =>
        split
        next =>
          refine matched.changeAndGoOn isNumbered ?_ _ ?_
          · exact fun other isRequest => isRequest
          · rfl
        next => exact matched
      next => exact matched
  | expectFunction thread =>
      simp only [Exchange.step]
      split
      next request isLocked =>
        refine matched.changeAndGoOn isLocked ?_ _ ?_
        · exact fun other isRequest => isRequest
        · rfl
      next => exact matched
  | expectNumber thread =>
      simp only [Exchange.step]
      split
      next request isFunction =>
        refine matched.changeAndGoOn isFunction ?_ _ ?_
        · exact fun other isRequest => isRequest
        · rfl
      next => exact matched
  | take thread =>
      simp only [Exchange.step]
      split
      next request waiting => exact matched.taken waiting
      next => exact matched
  | giveUp thread =>
      simp only [Exchange.step]
      split
      next request waiting => exact matched.goOn waiting (fun _ => id)
      next => exact matched
  | clearFunction thread =>
      simp only [Exchange.step]
      split
      next request leaving =>
        refine matched.changeAndGoOn leaving ?_ _ ?_
        · exact fun other isRequest => isRequest
        · rfl
      next => exact matched
  | clearNumber thread =>
      simp only [Exchange.step]
      split
      next request cleared =>
        refine matched.changeAndGoOn cleared ?_ _ ?_
        · rintro other ⟨⟩
        · rfl
      next => exact matched
  | handle arrival =>
      simp only [Exchange.step]
      split
      next =>
        refine ⟨matched.counter, matched.numbers, matched.threads,
          matched.queues, ?_, matched.returned⟩
        split
        next =>
          rintro other ⟨⟩
          exact allowed.1
        next => nofun
      next => exact matched
  | compare =>
      simp only [Exchange.step]
      split
      next arrival isCompared =>
        refine ⟨matched.counter, matched.numbers, matched.threads,
          matched.queues, ?_, matched.returned⟩
        split
        next =>
          rintro other ⟨⟩
          apply matched.receiver
          rw [isCompared]
          rfl
        next => nofun
      next => exact matched
  | put =>
      simp only [Exchange.step]
      split
      next arrival isExpected =>
        have fits : arrival.Fits state.requests := by
          apply matched.receiver
          rw [isExpected]
          rfl
        have changed :
            (state.change (getUidFromData arrival.packet)
              (fun device =>
                { device with
                  responseQueue :=
                    device.responseQueue ++ [arrival] })).Matched := by
          apply matched.change
          intro other queued
          rcases List.mem_append.mp queued with old | new
          · exact matched.queues _ other old
          · rw [List.mem_singleton.mp new]
            exact ⟨fits, fits.uid.symm⟩
        exact ⟨changed.counter, changed.numbers, changed.threads,
          changed.queues, nofun, changed.returned⟩
      next => exact matched

/-! ## One response for one request -/

/-- How often the response to a request is somewhere. -/
def copies (state : Exchange ι) (request : Request) : Nat :=
  ((state.devices request.uid).responseQueue.map Arrival.answers).count
      request +
    (state.receiver.arrival?.toList.map Arrival.answers).count request +
      (state.returned.map (fun entry => entry.2.answers)).count request

/-- A response is at most at one place, once it has arrived. -/
structure Counted (state : Exchange ι) : Prop where
  arrived : state.arrived.Nodup
  copies : ∀ request, state.copies request ≤ state.arrived.count request

omit [DecidableEq ι] in
theorem Counted.congr {next : Exchange ι}
    (counted : state.Counted)
    (queues :
      ∀ uid, (next.devices uid).responseQueue =
        (state.devices uid).responseQueue)
    (receiver : next.receiver = state.receiver)
    (returned : next.returned = state.returned)
    (arrived : next.arrived = state.arrived) : next.Counted := by
  refine ⟨arrived ▸ counted.arrived, ?_⟩
  intro request
  have same : next.copies request = state.copies request := by
    simp only [Exchange.copies, queues, receiver, returned]
  rw [same, arrived]
  exact counted.copies request

omit [DecidableEq ι] in
theorem responseQueue_change
    {uid : Nat} {change : DeviceState ι → DeviceState ι}
    (kept :
      (change (state.devices uid)).responseQueue =
        (state.devices uid).responseQueue) (other : Nat) :
    ((state.change uid change).devices other).responseQueue =
      (state.devices other).responseQueue := by
  by_cases same : other = uid
  · rw [same, devices_change_self]
    exact kept
  · rw [devices_change_of_ne same]

theorem Counted.changeAndGoOn
    (counted : state.Counted) {uid : Nat}
    {change : DeviceState ι → DeviceState ι} {thread : ι} {place : CallPlace}
    (kept :
      (change (state.devices uid)).responseQueue =
        (state.devices uid).responseQueue) :
    ((state.change uid change).moveTo thread place).Counted :=
  counted.congr (responseQueue_change kept) rfl rfl rfl

theorem Counted.taken
    (counted : state.Counted) (matched : state.Matched) (thread : ι)
    (request : Request) : (state.taken thread request).Counted := by
  simp only [Exchange.taken]
  split
  next => exact counted
  next arrival rest queue =>
    have first : arrival.answers.uid = request.uid := by
      apply (matched.queues request.uid arrival _).2
      rw [queue]
      exact List.mem_cons_self ..
    have shorter :
        ∀ other : Request,
          ((((state.change request.uid
                (fun device => { device with responseQueue := rest })).devices
              other.uid).responseQueue).map Arrival.answers).count other +
              [arrival.answers].count other =
            (((state.devices other.uid).responseQueue).map
              Arrival.answers).count other := by
      intro other
      by_cases same : other.uid = request.uid
      · rw [same, devices_change_self, queue, List.map_cons]
        simp only [List.count_cons, List.count_nil, Nat.zero_add]
      · rw [devices_change_of_ne same]
        have elsewhere : arrival.answers ≠ other := by
          rintro rfl
          exact same first
        rw [List.count_singleton, beq_false_of_ne elsewhere]
        rfl
    split
    next =>
      refine ⟨counted.arrived, ?_⟩
      intro other
      refine Nat.le_trans (Nat.le_of_eq ?_) (counted.copies other)
      have part := shorter other
      simp only [Exchange.copies, List.map_append, List.map_cons, List.map_nil,
        List.count_append]
      have queues :
          ((state.change request.uid
              (fun device => { device with responseQueue := rest })).moveTo
            thread (.leaving request)).devices =
            (state.change request.uid
              (fun device => { device with responseQueue := rest })).devices :=
        rfl
      have receiver :
          ((state.change request.uid
              (fun device => { device with responseQueue := rest })).moveTo
            thread (.leaving request)).receiver = state.receiver := rfl
      rw [queues, receiver]
      omega
    next =>
      refine ⟨counted.arrived, ?_⟩
      intro other
      refine Nat.le_trans ?_ (counted.copies other)
      have part := shorter other
      simp only [Exchange.copies]
      have receiver :
          (state.change request.uid
            (fun device => { device with responseQueue := rest })).receiver =
            state.receiver := rfl
      have returned :
          (state.change request.uid
            (fun device => { device with responseQueue := rest })).returned =
            state.returned := rfl
      rw [receiver, returned]
      omega

theorem Counted.put
    (counted : state.Counted) (matched : state.Matched) :
    (state.step .put).Counted := by
  simp only [Exchange.step]
  split
  next arrival isExpected =>
    have fits : arrival.Fits state.requests := by
      apply matched.receiver
      rw [isExpected]
      rfl
    refine ⟨counted.arrived, ?_⟩
    intro other
    refine Nat.le_trans (Nat.le_of_eq ?_) (counted.copies other)
    simp only [Exchange.copies, isExpected, Receiver.arrival?,
      Option.toList_none, List.map_nil, List.count_nil, Nat.add_zero,
      Option.toList_some, List.map_cons]
    have returned :
        (state.change (getUidFromData arrival.packet)
          (fun device =>
            { device with
              responseQueue :=
                device.responseQueue ++ [arrival] })).returned =
          state.returned := rfl
    rw [returned]
    by_cases same : other.uid = getUidFromData arrival.packet
    · rw [same, devices_change_self, List.map_append, List.count_append]
      rfl
    · rw [devices_change_of_ne same]
      have elsewhere : arrival.answers ≠ other := by
        rintro rfl
        exact same fits.uid.symm
      rw [List.count_singleton, beq_false_of_ne elsewhere]
      rfl
  next => exact counted

theorem Counted.handle
    (counted : state.Counted) {arrival : Arrival}
    (new : arrival.answers ∉ state.arrived) :
    (state.step (.handle arrival)).Counted := by
  have arrived : (state.arrived ++ [arrival.answers]).Nodup := by
    rw [List.nodup_append]
    refine ⟨counted.arrived, List.nodup_singleton _, ?_⟩
    rintro old known other member rfl
    rw [List.mem_singleton.mp member] at known
    exact new known
  simp only [Exchange.step]
  split
  next isIdle =>
    refine ⟨arrived, ?_⟩
    intro other
    have before := counted.copies other
    simp only [Exchange.copies, isIdle, Receiver.arrival?,
      Option.toList_none, List.map_nil, List.count_nil, Nat.add_zero]
      at before
    split
    next =>
      simp only [Exchange.copies, Receiver.arrival?, Option.toList_some,
        List.map_cons, List.map_nil, List.count_append]
      omega
    next =>
      simp only [Exchange.copies, Receiver.arrival?, Option.toList_none,
        List.map_nil, List.count_nil, List.count_append]
      omega
  next => exact counted

theorem Counted.compare (counted : state.Counted) :
    (state.step .compare).Counted := by
  simp only [Exchange.step]
  split
  next arrival isCompared =>
    refine ⟨counted.arrived, ?_⟩
    intro other
    have before := counted.copies other
    simp only [Exchange.copies, isCompared, Receiver.arrival?] at before
    split
    next => exact before
    next =>
      simp only [Exchange.copies, Receiver.arrival?, Option.toList_none,
        List.map_nil, List.count_nil]
      omega
  next => exact counted

theorem Counted.step
    (counted : state.Counted) (matched : state.Matched)
    {action : ExchangeAction ι} (allowed : action.Allowed state) :
    (state.step action).Counted := by
  cases action with
  | take thread =>
      simp only [Exchange.step]
      split
      next request waiting => exact counted.taken matched thread request
      next => exact counted
  | handle arrival => exact counted.handle allowed.2
  | compare => exact counted.compare
  | put => exact counted.put matched
  | pass uid functionId => exact counted.congr (fun _ => rfl) rfl rfl rfl
  | lock thread =>
      simp only [Exchange.step]
      split
      next =>
        split
        next =>
          refine counted.changeAndGoOn ?_
          rfl
        next => exact counted
      next => exact counted
  | number thread uid functionId =>
      simp only [Exchange.step]
      split
      next => exact counted.congr (fun _ => rfl) rfl rfl rfl
      next => exact counted
  | giveUp thread =>
      simp only [Exchange.step]
      split
      next => exact counted.congr (fun _ => rfl) rfl rfl rfl
      next => exact counted
  | _ =>
      simp only [Exchange.step]
      split
      next =>
        refine counted.changeAndGoOn ?_
        rfl
      next => exact counted

/-! ## One caller for one device -/

end Exchange

/-- The request for which the thread has the lock of the device. -/
def CallPlace.holding? : CallPlace → Option Request
  | .outside | .numbered _ => none
  | .locked request | .function request | .waiting request
  | .leaving request | .cleared request => some request

/-- What the device expects then. -/
def CallPlace.expects : CallPlace → Option Nat × Option Nat
  | .function request => (some request.functionId, none)
  | .waiting request | .leaving request =>
      (some request.functionId, some request.sequenceNumber)
  | .cleared request => (none, some request.sequenceNumber)
  | .outside | .numbered _ | .locked _ => (none, none)

def DeviceState.expects {ι : Type} (device : DeviceState ι) :
    Option Nat × Option Nat :=
  (device.expectedFunctionId, device.expectedSequenceNumber)

namespace Exchange

variable {ι : Type} [DecidableEq ι] {state : Exchange ι}

/-- A device expects what the thread with its lock waits for. -/
structure Exclusive (state : Exchange ι) : Prop where
  holder :
    ∀ thread request, (state.threads thread).holding? = some request →
      (state.devices request.uid).requestLock = some thread ∧
        (state.devices request.uid).expects = (state.threads thread).expects
  free :
    ∀ uid, (state.devices uid).requestLock = none →
      (state.devices uid).expects = (none, none)

/-- A thread without a lock goes to a place without a lock. -/
theorem Exclusive.moveTo
    (exclusive : state.Exclusive) (thread : ι) {place : CallPlace}
    (idle : place.holding? = none) :
    (state.moveTo thread place).Exclusive := by
  refine ⟨?_, exclusive.free⟩
  intro other request holding
  by_cases same : other = thread
  · rw [same, threads_moveTo_self, idle] at holding
    cases holding
  · rw [threads_moveTo_of_ne same] at holding ⊢
    exact exclusive.holder other request holding

/-- A thread that has the lock, or takes it, goes on. -/
theorem Exclusive.goOn
    (exclusive : state.Exclusive) {thread : ι} {request : Request}
    (mine :
      (state.devices request.uid).requestLock = none ∨
        (state.devices request.uid).requestLock = some thread)
    {place : CallPlace} (onward : place.holding? = some request)
    {change : DeviceState ι → DeviceState ι}
    (locked :
      (change (state.devices request.uid)).requestLock = some thread)
    (expects :
      (change (state.devices request.uid)).expects = place.expects) :
    ((state.change request.uid change).moveTo thread place).Exclusive := by
  have devices :
      ((state.change request.uid change).moveTo thread place).devices =
        (state.change request.uid change).devices := rfl
  refine ⟨?_, ?_⟩
  · intro other known holding
    rw [devices]
    by_cases same : other = thread
    · rw [same, threads_moveTo_self, onward, Option.some.injEq] at holding
      rw [← holding, same, threads_moveTo_self, devices_change_self]
      exact ⟨locked, expects⟩
    · rw [threads_moveTo_of_ne same] at holding ⊢
      have held := exclusive.holder other known holding
      have elsewhere : known.uid ≠ request.uid := by
        intro sameDevice
        rw [sameDevice] at held
        rcases mine with nobody | me
        · rw [nobody] at held
          cases held.1
        · rw [me, Option.some.injEq] at held
          exact same held.1.symm
      rw [devices_change_of_ne elsewhere]
      exact held
  · intro uid nobody
    rw [devices] at nobody ⊢
    by_cases same : uid = request.uid
    · rw [same, devices_change_self, locked] at nobody
      cases nobody
    · rw [devices_change_of_ne same] at nobody ⊢
      exact exclusive.free uid nobody

/-- A thread gives the lock back. -/
theorem Exclusive.release
    (exclusive : state.Exclusive) {thread : ι} {request : Request}
    (mine : (state.devices request.uid).requestLock = some thread)
    {change : DeviceState ι → DeviceState ι}
    (expects :
      (change (state.devices request.uid)).expects = (none, none)) :
    ((state.change request.uid change).moveTo thread .outside).Exclusive := by
  have devices :
      ((state.change request.uid change).moveTo thread .outside).devices =
        (state.change request.uid change).devices := rfl
  refine ⟨?_, ?_⟩
  · intro other known holding
    rw [devices]
    by_cases same : other = thread
    · rw [same, threads_moveTo_self] at holding
      cases holding
    · rw [threads_moveTo_of_ne same] at holding ⊢
      have held := exclusive.holder other known holding
      have elsewhere : known.uid ≠ request.uid := by
        intro sameDevice
        rw [sameDevice, mine, Option.some.injEq] at held
        exact same held.1.symm
      rw [devices_change_of_ne elsewhere]
      exact held
  · intro uid nobody
    rw [devices] at nobody ⊢
    by_cases same : uid = request.uid
    · rw [same, devices_change_self]
      exact expects
    · rw [devices_change_of_ne same] at nobody ⊢
      exact exclusive.free uid nobody

omit [DecidableEq ι] in
/-- A queue changes. -/
theorem Exclusive.queue
    (exclusive : state.Exclusive) (uid : Nat)
    {change : DeviceState ι → DeviceState ι}
    (locked :
      (change (state.devices uid)).requestLock =
        (state.devices uid).requestLock)
    (expects :
      (change (state.devices uid)).expects = (state.devices uid).expects) :
    (state.change uid change).Exclusive := by
  have kept :
      ∀ other,
        ((state.change uid change).devices other).requestLock =
            (state.devices other).requestLock ∧
          ((state.change uid change).devices other).expects =
            (state.devices other).expects := by
    intro other
    by_cases same : other = uid
    · rw [same, devices_change_self]
      exact ⟨locked, expects⟩
    · rw [devices_change_of_ne same]
      exact ⟨rfl, rfl⟩
  refine ⟨?_, ?_⟩
  · intro thread request holding
    rw [(kept request.uid).1, (kept request.uid).2]
    exact exclusive.holder thread request holding
  · intro other nobody
    rw [(kept other).2]
    rw [(kept other).1] at nobody
    exact exclusive.free other nobody

theorem Exclusive.taken
    (exclusive : state.Exclusive) {thread : ι} {request : Request}
    (waiting : state.threads thread = .waiting request) :
    (state.taken thread request).Exclusive := by
  have held := exclusive.holder thread request (by rw [waiting]; rfl)
  simp only [Exchange.taken]
  split
  next => exact exclusive
  next arrival rest queue =>
    split
    next =>
      have gone :
          ((state.change request.uid
              (fun device => { device with responseQueue := rest })).moveTo
            thread (.leaving request)).Exclusive := by
        refine exclusive.goOn (Or.inr held.1) rfl held.1 ?_
        rw [waiting] at held
        exact held.2
      exact ⟨gone.holder, gone.free⟩
    next =>
      refine exclusive.queue request.uid ?_ ?_
      · rfl
      · rfl

theorem Exclusive.step
    (exclusive : state.Exclusive) (action : ExchangeAction ι) :
    (state.step action).Exclusive := by
  have holds :
      ∀ {thread : ι} {place : CallPlace} {request : Request},
        state.threads thread = place → place.holding? = some request →
          (state.devices request.uid).requestLock = some thread ∧
            (state.devices request.uid).expects = place.expects := by
    intro thread place request isPlace holding
    have held :=
      exclusive.holder thread request (by rw [isPlace]; exact holding)
    rw [isPlace] at held
    exact held
  cases action with
  | number thread uid functionId =>
      simp only [Exchange.step]
      split
      next =>
        have numbered : (state.numbered uid functionId).Exclusive :=
          ⟨exclusive.holder, exclusive.free⟩
        exact numbered.moveTo thread rfl
      next => exact exclusive
  | pass uid functionId => exact ⟨exclusive.holder, exclusive.free⟩
  | lock thread =>
      simp only [Exchange.step]
      split
      next request isNumbered =>
        split
        next nobody =>
          have isFree := Option.isNone_iff_eq_none.mp nobody
          refine exclusive.goOn (Or.inl isFree) rfl rfl ?_
          exact exclusive.free request.uid isFree
        next => exact exclusive
      next => exact exclusive
  | expectFunction thread =>
      simp only [Exchange.step]
      split
      next request isLocked =>
        have held := holds isLocked rfl
        refine exclusive.goOn (Or.inr held.1) rfl held.1 ?_
        have sameNumber := congrArg Prod.snd held.2
        exact Prod.ext rfl sameNumber
      next => exact exclusive
  | expectNumber thread =>
      simp only [Exchange.step]
      split
      next request isFunction =>
        have held := holds isFunction rfl
        refine exclusive.goOn (Or.inr held.1) rfl held.1 ?_
        have sameFunction := congrArg Prod.fst held.2
        exact Prod.ext sameFunction rfl
      next => exact exclusive
  | take thread =>
      simp only [Exchange.step]
      split
      next request waiting => exact exclusive.taken waiting
      next => exact exclusive
  | giveUp thread =>
      simp only [Exchange.step]
      split
      next request waiting =>
        have held := holds waiting rfl
        have unchanged :
            state.change request.uid (fun device => device) = state := by
          simp [Exchange.change]
        have gone :=
          @Exclusive.goOn ι _ state exclusive thread request (Or.inr held.1)
            (.leaving request) rfl (fun device => device) held.1 held.2
        rw [unchanged] at gone
        exact gone
      next => exact exclusive
  | clearFunction thread =>
      simp only [Exchange.step]
      split
      next request leaving =>
        have held := holds leaving rfl
        refine exclusive.goOn (Or.inr held.1) rfl held.1 ?_
        have sameNumber := congrArg Prod.snd held.2
        exact Prod.ext rfl sameNumber
      next => exact exclusive
  | clearNumber thread =>
      simp only [Exchange.step]
      split
      next request cleared =>
        have held := holds cleared rfl
        refine exclusive.release held.1 ?_
        have sameFunction := congrArg Prod.fst held.2
        exact Prod.ext sameFunction rfl
      next => exact exclusive
  | handle arrival =>
      simp only [Exchange.step]
      split
      next => exact ⟨exclusive.holder, exclusive.free⟩
      next => exact exclusive
  | compare =>
      simp only [Exchange.step]
      split
      next => exact ⟨exclusive.holder, exclusive.free⟩
      next => exact exclusive
  | put =>
      simp only [Exchange.step]
      split
      next arrival isExpected =>
        have queued :
            (state.change (getUidFromData arrival.packet)
              (fun device =>
                { device with
                  responseQueue :=
                    device.responseQueue ++ [arrival] })).Exclusive := by
          refine exclusive.queue _ ?_ ?_
          · rfl
          · rfl
        exact ⟨queued.holder, queued.free⟩
      next => exact exclusive

/-! ## Responses are taken -/

/-- The first response of a queue that has the function and the number of a
request. -/
def firstAwaited (request : Request) (queue : List Arrival) :
    Option Arrival :=
  queue.find? (fun arrival => isAwaited request arrival.packet)

/-- Responses before the first awaited one are thrown away, one after the
other. -/
theorem takes_awaited
    {thread : ι} {request : Request}
    (waiting : state.threads thread = .waiting request) {queue : List Arrival}
    (isQueue : (state.devices request.uid).responseQueue = queue)
    {response : Arrival}
    (isFirst : firstAwaited request queue = some response) :
    ∃ takes ≤ queue.length,
      (runActions Exchange.step state
            (List.replicate takes (.take thread))).threads thread =
          .leaving request ∧
        (runActions Exchange.step state
            (List.replicate takes (.take thread))).returned =
          state.returned ++ [(request, response)] := by
  induction queue generalizing state with
  | nil => cases isFirst
  | cons arrival rest inductionHypothesis =>
      have took :
          state.step (.take thread) = state.taken thread request := by
        simp only [Exchange.step, waiting]
      by_cases first : isAwaited request arrival.packet = true
      · simp only [firstAwaited, List.find?_cons, first, Option.some.injEq]
          at isFirst
        refine ⟨1, Nat.le_add_left _ _, ?_⟩
        have run :
            runActions Exchange.step state
                (List.replicate 1 (.take thread)) =
              state.taken thread request := took
        rw [run, ← isFirst]
        simp only [Exchange.taken, isQueue, first, if_true]
        exact ⟨threads_moveTo_self, trivial⟩
      · simp only [firstAwaited, List.find?_cons, first] at isFirst
        have next :
            state.taken thread request =
              state.change request.uid
                (fun device => { device with responseQueue := rest }) := by
          simp only [Exchange.taken, isQueue, first, if_false,
            Bool.false_eq_true]
        have shorter :
            ((state.taken thread request).devices
              request.uid).responseQueue = rest := by
          rw [next, devices_change_self]
        have stillWaiting :
            (state.taken thread request).threads thread =
              .waiting request := by
          rw [next]
          exact waiting
        have sameReturned :
            (state.taken thread request).returned = state.returned := by
          rw [next]
          rfl
        obtain ⟨takes, few, done⟩ :=
          inductionHypothesis stillWaiting shorter isFirst
        refine ⟨takes + 1, Nat.succ_le_succ few, ?_⟩
        rw [List.replicate_succ, runActions_cons, took, ← sameReturned]
        exact done

/-- The response to a request that waits is put into the queue.  What is
taken is the first response of the queue that has its function and number,
the one just put there if there was none. -/
theorem Exclusive.answered
    (exclusive : state.Exclusive) (matched : state.Matched)
    {thread : ι} {request : Request}
    (waiting : state.threads thread = .waiting request)
    (isIdle : state.receiver = .idle) {arrival : Arrival}
    (fits : arrival.Fits state.requests)
    (answers : arrival.answers = request) :
    ∃ takes ≤ (state.devices request.uid).responseQueue.length + 1,
      (runActions Exchange.step state
            (.handle arrival :: .compare :: .put ::
              List.replicate takes (.take thread))).threads thread =
          .leaving request ∧
        (runActions Exchange.step state
            (.handle arrival :: .compare :: .put ::
              List.replicate takes (.take thread))).returned =
          state.returned ++
            [(request,
              (firstAwaited request
                  (state.devices request.uid).responseQueue).getD
                arrival)] := by
  have known : request ∈ state.requests := answers ▸ fits.known
  have uid : getUidFromData arrival.packet = request.uid := by
    rw [fits.uid, answers]
  have functionId :
      getFunctionIdFromData arrival.packet = request.functionId := by
    rw [fits.functionId, answers]
  have number :
      getSequenceNumberFromData arrival.packet = request.sequenceNumber := by
    rw [fits.sequenceNumber, answers]
  have notZero : (request.sequenceNumber != 0) = true := by
    rw [(matched.numbers request known).2]
    rfl
  have held := (exclusive.holder thread request (by rw [waiting]; rfl)).2
  rw [waiting] at held
  have expectsFunction :
      (state.devices request.uid).expectedFunctionId =
        some request.functionId := congrArg Prod.fst held
  have expectsNumber :
      (state.devices request.uid).expectedSequenceNumber =
        some request.sequenceNumber := congrArg Prod.snd held
  have compared :
      (state.step (.handle arrival)).step .compare =
        { state with
          receiver := .expected arrival
          arrived := state.arrived ++ [arrival.answers] } := by
    simp only [Exchange.step, isIdle, uid, functionId, number, notZero,
      expectsFunction, expectsNumber, beq_self_eq_true, Bool.and_self,
      if_true]
  have queued :
      ((((state.step (.handle arrival)).step .compare).step .put).devices
          request.uid).responseQueue =
        (state.devices request.uid).responseQueue ++ [arrival] := by
    rw [compared]
    simp only [Exchange.step, uid]
    rw [devices_change_self]
  have stillWaiting :
      (((state.step (.handle arrival)).step .compare).step .put).threads
          thread =
        .waiting request := by
    rw [compared]
    exact waiting
  have sameReturned :
      (((state.step (.handle arrival)).step .compare).step .put).returned =
        state.returned := by
    rw [compared]
    rfl
  have isFirst :
      firstAwaited request
          ((state.devices request.uid).responseQueue ++ [arrival]) =
        some
          ((firstAwaited request
              (state.devices request.uid).responseQueue).getD
            arrival) := by
    have awaited : isAwaited request arrival.packet = true := by
      simp [isAwaited, functionId, number]
    simp only [firstAwaited, List.find?_append, List.find?_cons, awaited]
    cases (state.devices request.uid).responseQueue.find?
        (fun queued => isAwaited request queued.packet) with
    | none => rfl
    | some queued => rfl
  obtain ⟨takes, few, done⟩ := takes_awaited stillWaiting queued isFirst
  rw [List.length_append, List.length_singleton] at few
  refine ⟨takes, few, ?_⟩
  rw [runActions_cons, runActions_cons, runActions_cons, ← sameReturned]
  exact done

/-! ## Runs -/

omit [DecidableEq ι] in
/-- What is returned responds to the request, or to one that is fifteen
requests away. -/
theorem Matched.answers
    (matched : state.Matched) {request : Request} {response : Arrival}
    (member : (request, response) ∈ state.returned) :
    response.answers.uid = request.uid ∧
      response.answers.functionId = request.functionId ∧
      (response.answers = request ∨
        response.answers.index + 15 ≤ request.index ∨
        request.index + 15 ≤ response.answers.index) := by
  obtain ⟨known, fits, uid, functionId, number⟩ :=
    matched.returned _ member
  obtain ⟨found, isNumber⟩ := matched.numbers request known
  obtain ⟨foundOther, isOther⟩ :=
    matched.numbers response.answers fits.known
  refine ⟨uid, functionId, ?_⟩
  dsimp only at number
  rw [isNumber, isOther] at number
  by_cases same : response.answers.index = request.index
  · left
    rw [same, found, Option.some.injEq] at foundOther
    exact foundOther.symm
  · right
    omega

/-- However any number of threads, the receive thread and the devices
alternate: what a call returns is a response of its device and its function,
to this request or to one that is at least fifteen requests away; no response
is returned twice; and while a call waits, it returns as soon as its response
is handled: this response, or the first one in the queue that has the same
function and number, if there is one. -/
theorem responses_matched
    (actions : List (ExchangeAction ι))
    (allowed :
      EveryStep Exchange.step (fun state action => action.Allowed state)
        exchange actions) :
    EveryState Exchange.step
      (fun state : Exchange ι =>
        (∀ request response, (request, response) ∈ state.returned →
          response.answers.uid = request.uid ∧
            response.answers.functionId = request.functionId ∧
            (response.answers = request ∨
              response.answers.index + 15 ≤ request.index ∨
              request.index + 15 ≤ response.answers.index)) ∧
          (state.returned.map (fun entry => entry.2.answers)).Nodup ∧
          ∀ thread request arrival,
            state.threads thread = .waiting request →
              state.receiver = .idle → arrival.Fits state.requests →
                arrival.answers = request →
                  ∃ takes ≤
                      (state.devices request.uid).responseQueue.length + 1,
                    (runActions Exchange.step state
                          (.handle arrival :: .compare :: .put ::
                            List.replicate takes
                              (.take thread))).threads thread =
                        .leaving request ∧
                      (runActions Exchange.step state
                          (.handle arrival :: .compare :: .put ::
                            List.replicate takes (.take thread))).returned =
                        state.returned ++
                          [(request,
                            (firstAwaited request
                                (state.devices
                                  request.uid).responseQueue).getD
                              arrival)])
      exchange actions := by
  have sound :
      EveryState Exchange.step
        (fun state : Exchange ι =>
          state.Matched ∧ state.Counted ∧ state.Exclusive)
        exchange actions := by
    refine everyState_invariant _ ?_ ?_ allowed
    · rintro state action ⟨matched, counted, exclusive⟩ isAllowed
      exact
        ⟨matched.step isAllowed, counted.step matched isAllowed,
          exclusive.step action⟩
    · refine ⟨⟨rfl, nofun, ?_, nofun, nofun, nofun⟩,
        ⟨.nil, fun _ => Nat.le_refl 0⟩, ⟨?_, fun _ _ => rfl⟩⟩
      · rintro thread request ⟨⟩
      · rintro thread request ⟨⟩
  refine sound.imp ?_
  rintro state ⟨matched, counted, exclusive⟩
  refine ⟨fun request response member => matched.answers member, ?_, ?_⟩
  · rw [List.nodup_iff_count_le_one]
    intro request
    have once := List.nodup_iff_count_le_one.mp counted.arrived request
    have places := counted.copies request
    simp only [Exchange.copies] at places
    omega
  · intro thread request arrival waiting isIdle fits answers
    exact exclusive.answered matched waiting isIdle fits answers

/-- The response to the first request of a device is compared in time, but it
is put into the queue when its caller has gone; the caller of a request fifteen
later takes it. -/
def lateResponse : List (ExchangeAction Bool) :=
  [.number true 1 1, .lock true, .expectFunction true, .expectNumber true,
      .handle ⟨⟨0, 1, 1, 1⟩, [1, 0, 0, 0, 8, 1, 16, 0]⟩, .compare,
      .giveUp true, .clearFunction true, .clearNumber true, .put] ++
    List.replicate 14 (.pass 2 1) ++
      [.number false 1 1, .lock false, .expectFunction false,
        .expectNumber false, .take false]

theorem responses_matched_lateResponse :
    (runActions Exchange.step exchange lateResponse).returned.map
          (fun entry => (entry.1.index, entry.2.answers.index)) =
        [(15, 0)] ∧
      ((runActions Exchange.step exchange lateResponse).returned.map
        (fun entry => entry.2.answers)).Nodup := by
  have matched := responses_matched lateResponse (by decide)
  rw [← List.append_nil lateResponse] at matched
  exact ⟨by decide, matched.visited.2.1⟩

end Exchange

end LtlsKitting.Bindings
