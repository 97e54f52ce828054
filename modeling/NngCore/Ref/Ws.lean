import NngCore.Ref.Codec

/-!
# The WebSocket upgrade (`src/transport/ws.rs`, `src/codec.rs`)

Over WebSocket there is no SP handshake. The dialer names the protocol it
wants to talk to in the `Sec-WebSocket-Protocol` header of its request, the
listener compares the name with its own and echoes it, and the dialer compares
the echo. Header values belong to the `http` crate; what the upgrade uses of
them are two conversions, `HeaderValue::from_str` and `HeaderValue::to_str`,
taken here as they come. The upgrade over TLS checks the same header the same
way.
-/

namespace NngCore.Ref

namespace ProtocolId

def wsProtocolName : ProtocolId → String
  | req0 => "req"
  | rep0 => "rep"
  | pub0 => "pub"
  | sub0 => "sub"
  | push0 => "push"
  | pull0 => "pull"
  | pair0 => "pair"
  | pair1 => "pair"
  | surveyor0 => "surveyor"
  | respondent0 => "respondent"
  | bus0 => "bus"
  | _ => "unknown"

def wsSubprotocol (p : ProtocolId) : String := p.wsProtocolName ++ ".sp.nanomsg.org"

end ProtocolId

/-- `HeaderValue::from_str` and `HeaderValue::to_str`. -/
structure HeaderValueApi (V : Type) where
  fromStr : String → Except String V
  toStr : V → Option String

/-- `WsError`, as far as an upgrade returns it; a refused upgrade is known by the
HTTP status of the response. -/
inductive WsError where
  | tungstenite (status : Nat)
  | subprotocolMismatch (expected got : String)
  | invalidHeader (e : String)
  deriving DecidableEq, Repr

section

variable {V : Type} (http : HeaderValueApi V)

/-- `connect` up to the request: the header value it sends. -/
def wsRequest (loc : ProtocolId) : Except WsError V :=
  match http.fromStr loc.expectedPeer.wsSubprotocol with
  | .error e => .error (.invalidHeader e)
  | .ok v => .ok v

/-- The callback of `ws_upgrade`: the header value of the response, or the HTTP
status of the refusal. Outside, `none` is the panic of the `unwrap`. -/
def wsUpgrade (loc : ProtocolId) (header : Option V) : Option (Except Nat V) :=
  let expected := loc.wsSubprotocol
  let clientProto := (header.bind http.toStr).getD ""
  if clientProto ≠ expected then some (.error 400)
  else
    match http.fromStr expected with
    | .error _ => none
    | .ok v => some (.ok v)

/-- `connect` from the response on. -/
def wsEstablished (loc : ProtocolId) (header : Option V) : Except WsError Unit :=
  let peerSubproto := loc.expectedPeer.wsSubprotocol
  let serverProto := (header.bind http.toStr).getD ""
  if serverProto ≠ peerSubproto then .error (.subprotocolMismatch peerSubproto serverProto)
  else .ok ()

/-- What `connect` and `accept` return for one connection. A side that never
gets to a result has `none`: no request reaches the listener, or it panics. -/
structure Upgraded where
  dialer : Option (Except WsError Unit)
  listener : Option (Except WsError Unit)
  deriving DecidableEq

/-- `WsTransport::connect` with `d` against `WsTransport::accept` with `l`, the
header values carried verbatim in both directions. -/
def wsConnectAccept (d l : ProtocolId) : Upgraded :=
  match wsRequest http d with
  | .error e => ⟨some (.error e), none⟩
  | .ok request =>
      match wsUpgrade http l (some request) with
      | none => ⟨none, none⟩
      | some (.error status) =>
          ⟨some (.error (.tungstenite status)), some (.error (.tungstenite status))⟩
      | some (.ok response) => ⟨some (wsEstablished http d (some response)), some (.ok ())⟩

end

end NngCore.Ref
