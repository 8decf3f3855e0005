import LtlsKitting.Bindings.Packets

/-!
# The daemon

`client.c` of the daemon reads the requests of one client from a stream into a
buffer of the size of a packet, handles each of them when it is complete, and
moves the rest of the buffer to its beginning.  Requests to the daemon itself
are those of the authentication; all others are dispatched to the hardware,
unless a secret is configured and the client has not shown it.

The validity of a header is decided in a library that is not part of the
sources, and is a parameter of the daemon.  So is the digest of `hmac.c`: the
daemon only compares it.
-/

namespace LtlsKitting.Bindings

open LtlsKitting.Php LtlsKitting.Formats

def uidBrickDaemon : Nat := 1

def functionGetAuthenticationNonce : Nat := 1

def functionAuthenticate : Nat := 2

def functionDisconnectProbe : Nat := 128

/-- `sizeof(Packet)` -/
def packetSize : Nat := 80

/-- `packet_header_is_valid_request`, which accepts no length that is shorter
than a header or longer than the buffer. -/
structure HeaderCheck where
  valid : Bytes → Bool
  bounds :
    ∀ header, valid header = true →
      8 ≤ getLengthFromData header ∧ getLengthFromData header ≤ packetSize

/-- The configuration: the secret, if there is one, and the digests. -/
structure Daemon where
  check : HeaderCheck
  secret : Option Bytes
  hmacSha1 : Bytes → Bytes → Bytes

/-- A check of the length, the function and the sequence number. -/
def HeaderCheck.plain : HeaderCheck where
  valid header :=
    decide (8 ≤ getLengthFromData header) &&
      decide (getLengthFromData header ≤ packetSize) &&
        getFunctionIdFromData header != 0 &&
          getSequenceNumberFromData header != 0
  bounds := by
    intro header valid
    simp only [Bool.and_eq_true, decide_eq_true_eq] at valid
    exact valid.1.1

/-- A daemon without a secret, which never computes a digest. -/
def Daemon.plain : Daemon where
  check := .plain
  secret := none
  hmacSha1 := fun _ _ => []

/-- A daemon with a secret that knows one digest. -/
def Daemon.secured : Daemon where
  check := .plain
  secret := some (bytes "ltls")
  hmacSha1 := fun key message =>
    if key = bytes "ltls" ∧ message = [11, 22, 33, 44, 1, 2, 3, 4] then
      [212, 114, 140, 168, 153, 200, 254, 73, 127, 138, 31, 120, 218, 234,
        202, 208, 48, 22, 136, 93]
    else
      []

inductive AuthenticationState where
  | disabled
  | enabled
  | nonceSend
  | done
  deriving DecidableEq, Repr

/-- What the daemon knows of a client, and the requests of the client that it
has dispatched to the hardware. -/
structure Client where
  disconnected : Bool
  authentication : AuthenticationState
  authenticationNonce : Bytes
  dispatched : List Bytes
  deriving DecidableEq

/-- A client together with its buffer. -/
structure Reader where
  client : Client
  request : Bytes
  headerChecked : Bool
  deriving DecidableEq

def clientCreate (daemon : Daemon) (nonce : Bytes) : Client where
  disconnected := false
  authentication := if daemon.secret.isSome then .enabled else .disabled
  authenticationNonce := nonce
  dispatched := []

def Client.disconnect (client : Client) : Client :=
  { client with disconnected := true }

/-! ## Requests -/

/-- A client that is authenticated may ask for another nonce. -/
def handleNonceRequest (client : Client) : Client :=
  match client.authentication with
  | .disabled => client.disconnect
  | .nonceSend => client.disconnect
  | .enabled => { client with authentication := .nonceSend }
  | .done => { client with authentication := .nonceSend }

/-- The digest of both nonces under the secret. -/
def expectedDigest
    (daemon : Daemon) (nonce : Bytes) (request : Bytes) : Bytes :=
  daemon.hmacSha1 (daemon.secret.getD [])
    (nonce ++ (request.drop 8).take 4)

def handleAuthenticate
    (daemon : Daemon) (client : Client) (request : Bytes) : Client :=
  match client.authentication with
  | .nonceSend =>
      if (request.drop 12).take 20 =
          expectedDigest daemon client.authenticationNonce request then
        { client with authentication := .done }
      else
        client.disconnect
  | _ => client.disconnect

/-- `client_handle_request`, without the responses. -/
def clientHandleRequest
    (daemon : Daemon) (client : Client) (request : Bytes) : Client :=
  if getUidFromData request = uidBrickDaemon then
    if getFunctionIdFromData request = functionGetAuthenticationNonce then
      if getLengthFromData request ≠ 8 then
        client.disconnect
      else
        handleNonceRequest client
    else if getFunctionIdFromData request = functionAuthenticate then
      if getLengthFromData request ≠ 32 then
        client.disconnect
      else
        handleAuthenticate daemon client request
    else
      client
  else
    match client.authentication with
    | .disabled =>
        { client with dispatched := client.dispatched ++ [request] }
    | .done =>
        { client with dispatched := client.dispatched ++ [request] }
    | _ => client

/-- A complete packet; probes are dropped. -/
def handlePacket
    (daemon : Daemon) (client : Client) (packet : Bytes) : Client :=
  if getFunctionIdFromData packet = functionDisconnectProbe then
    client
  else
    clientHandleRequest daemon client packet

/-- The loop over the buffer, in at most so many rounds. -/
def readLoop (daemon : Daemon) : Nat → Reader → Reader
  | 0, reader => reader
  | rounds + 1, reader =>
      if reader.client.disconnected || reader.request.isEmpty then
        reader
      else if reader.request.length < 8 then
        reader
      else if !reader.headerChecked &&
          !daemon.check.valid (reader.request.take 8) then
        { reader with client := reader.client.disconnect }
      else if reader.request.length < getLengthFromData reader.request then
        { reader with headerChecked := true }
      else
        readLoop daemon rounds
          { client :=
              handlePacket daemon reader.client
                (reader.request.take (getLengthFromData reader.request))
            request :=
              reader.request.drop (getLengthFromData reader.request)
            headerChecked := false }

/-- `client_handle_read`, when some data was read; no data is the end of the
connection. -/
def clientHandleRead
    (daemon : Daemon) (reader : Reader) (data : Bytes) : Reader :=
  if data.isEmpty then
    { reader with client := reader.client.disconnect }
  else
    readLoop daemon ((reader.request ++ data).length + 1)
      { reader with request := reader.request ++ data }

/-- A client that is not disconnected is read when there is data, into the
free part of its buffer. -/
def Reads (reader : Reader) (data : Bytes) : Prop :=
  reader.client.disconnected = false ∧ data ≠ [] ∧
    data.length ≤ packetSize - reader.request.length

instance (reader : Reader) (data : Bytes) : Decidable (Reads reader data) :=
  inferInstanceAs
    (Decidable
      (reader.client.disconnected = false ∧ data ≠ [] ∧
        data.length ≤ packetSize - reader.request.length))

def startReader (daemon : Daemon) (nonce : Bytes) : Reader where
  client := clientCreate daemon nonce
  request := []
  headerChecked := false

end LtlsKitting.Bindings
