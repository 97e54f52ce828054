import NngCore.Lib.Text
import NngCore.Ref.Accept

/-!
# Where a URL leads (`src/socket.rs`, `src/transport/vsock.rs`)

Every way into the crate starts from a URL: five functions dial one, and six
functions listen on one. Each of them looks at the URL by itself, with its own
chain of `strip_prefix`, and hands what is left to the operating system or to
another crate. The model stops there: a result says what is asked for, and of
whom. What another crate refuses a URL for is a parameter (`Crates`), since the
URL is then not dialed at all; what the operating system makes of an address is
not in the model. A `&str` is the list of its characters.

Which functions exist and which branches they have is a matter of features and
of the platform. `wss` switches `ws` on, so a build is not just any set of
features.
-/

namespace NngCore.Ref

open NngCore.Lib

/-- What the crate is compiled with. -/
structure Build where
  unix : Bool
  ws : Bool
  wss : Bool
  tlsTcp : Bool
  quic : Bool
  vsock : Bool
  kcp : Bool
  udp : Bool
  ws_of_wss : wss = true → ws = true
  deriving DecidableEq

/-- What other crates make of a URL, or of a name in one. -/
structure Crates where
  /-- `ServerName::try_from` takes the name. -/
  serverName : List Char → Bool
  /-- What `quinn`'s `connect` says of an address or a name it does not take. -/
  quicConnect : List Char → List Char → Option String
  /-- The host and port the WebSocket client connects to for a URL, or what it says
  of the URL. -/
  wsConnect : List Char → Except String (List Char)

/-- The variants of `NngError` that a URL alone can bring about. -/
inductive UrlError where
  | io (text : String)
  | unsupportedScheme (text : String)
  | featureNotEnabled (feature : String)
  | protocolViolation (text : String)
  deriving DecidableEq, Repr

/-- `addr.strip_prefix(scheme)`. -/
def strip (scheme : String) (addr : List Char) : Option (List Char) :=
  scheme.toList.isPrefixOf? addr

/-- `addr.starts_with(scheme)`. -/
def startsWith (scheme : String) (addr : List Char) : Bool := (strip scheme addr).isSome

/-- `s.split('/').next()`, which always has a piece. -/
def beforeSlash (s : List Char) : List Char := s.takeWhile (· ≠ '/')

/-! ## VSOCK addresses -/

structure VsockAddr where
  cid : UInt32
  port : UInt32
  deriving DecidableEq, Repr

/-- `str::parse::<u32>`. -/
def parseU32 (s : List Char) : Option UInt32 :=
  (parseUnsigned UInt32.size s).map UInt32.ofNat

def parseCid (cid : List Char) : Option UInt32 :=
  if cid = "any".toList then some 4294967295
  else if cid = "host".toList then some 2
  else if cid = "local".toList then some 1
  else parseU32 cid

def parseVsockAddr (s : List Char) : Except String VsockAddr :=
  match rsplitOnce ':' s with
  | none => .error ("invalid vsock address (expected CID:port): " ++ String.ofList s)
  | some (cidStr, portStr) =>
      match parseCid cidStr with
      | none => .error ("invalid vsock CID: " ++ String.ofList cidStr)
      | some cid =>
          match parseU32 portStr with
          | none => .error ("invalid vsock port: " ++ String.ofList portStr)
          | some port => .ok ⟨cid, port⟩

/-! ## Dialing and listening -/

/-- `AnyStream`. -/
inductive AnyStream where
  | tcp
  | ipc
  | ipc2
  | tlsTcp
  | quic
  | vsock
  | kcp
  deriving DecidableEq, Repr

def AnyStream.frameFormat : AnyStream → FrameFormat
  | .tcp => .tcp
  | .ipc => .ipc
  | .ipc2 => .tcp
  | .tlsTcp => .tcp
  | .quic => .tcp
  | .vsock => .tcp
  | .kcp => .tcp

/-- The stream `accept_as_transport` makes of what the listener accepts, where it
makes one. -/
def AnyListener.stream : AnyListener → Option AnyStream
  | .tcp => some .tcp
  | .ipc => some .ipc
  | .ipc2 => some .ipc2
  | .ws => none
  | .wss => none
  | .tlsTcp => some .tlsTcp
  | .quic => some .quic
  | .vsock => some .vsock
  | .kcp => some .kcp

/-- What is handed to the operating system. -/
inductive OsAddr where
  | hostPort (text : List Char)
  | path (text : List Char)
  | vsock (addr : VsockAddr)
  deriving DecidableEq

/-- What a function that listens ends up with. -/
inductive Listening where
  | listener (l : AnyListener) (addr : OsAddr)
  | udp (addr : OsAddr)
  deriving DecidableEq

/-- What a function that dials ends up asking for; `host` is the name a TLS
certificate is checked against. The WebSocket client is given the whole URL, and
connects to `addr`. -/
inductive Dialing where
  | stream (s : AnyStream) (addr : OsAddr) (host : Option (List Char))
  | ws (url : List Char) (addr : OsAddr)
  | udp (addr : OsAddr)
  deriving DecidableEq

/-- The frame format `connect_framed` takes; WebSockets and datagrams have none. -/
def Listening.format : Listening → Option FrameFormat
  | .listener l _ => l.stream.map AnyStream.frameFormat
  | .udp _ => none

def Dialing.format : Dialing → Option FrameFormat
  | .stream s _ _ => some s.frameFormat
  | .ws _ _ => none
  | .udp _ => none

def unsupported (addr : List Char) : UrlError := .unsupportedScheme (String.ofList addr)

def noIpc : UrlError := .io "IPC (Unix domain sockets) is not supported on this platform"

/-- `bind_ipc_listener` and `bind_ipc2_listener`. -/
def bindIpcListener (b : Build) (l : AnyListener) (path : List Char) :
    Except UrlError Listening :=
  if b.unix then .ok (.listener l (.path path)) else .error noIpc

/-- `connect_ipc_stream` and `connect_ipc2_stream`. -/
def connectIpcStream (b : Build) (s : AnyStream) (path : List Char) :
    Except UrlError Dialing :=
  if b.unix then .ok (.stream s (.path path) none) else .error noIpc

def bindVsockListener (addr : List Char) : Except UrlError Listening :=
  match parseVsockAddr addr with
  | .error e => .error (.io e)
  | .ok a => .ok (.listener .vsock (.vsock a))

def connectVsockStream (addr : List Char) : Except UrlError Dialing :=
  match parseVsockAddr addr with
  | .error e => .error (.io e)
  | .ok a => .ok (.stream .vsock (.vsock a) none)

def bindKcpListener (addr : List Char) : Listening :=
  .listener .kcp (.hostPort (beforeSlash addr))

def connectKcpStream (addr : List Char) : Dialing :=
  .stream .kcp (.hostPort (beforeSlash addr)) none

/-- `addr.rsplit_once(':').map(|(h, _)| h).unwrap_or(addr)`. -/
def hostOf (addr : List Char) : List Char :=
  match rsplitOnce ':' addr with
  | some (host, _) => host
  | none => addr

def connectTlsTcpStream (c : Crates) (hostPort : List Char) : Except UrlError Dialing :=
  let addr := beforeSlash hostPort
  let host := hostOf addr
  if c.serverName host then .ok (.stream .tlsTcp (.hostPort addr) (some host))
  else .error (.io ("invalid TLS server name: " ++ String.ofList host))

/-- `quinn` is asked when the address has been looked up. -/
def connectQuicStream (c : Crates) (hostPort : List Char) : Except UrlError Dialing :=
  let addr := beforeSlash hostPort
  let host := hostOf addr
  match c.quicConnect addr host with
  | some e => .error (.io e)
  | none => .ok (.stream .quic (.hostPort addr) (some host))

/-- `WsTransport::connect`, with its error as `ws_err_to_nng` gives it. -/
def connectWs (c : Crates) (url : List Char) : Except UrlError Dialing :=
  match c.wsConnect url with
  | .ok addr => .ok (.ws url (.hostPort addr))
  | .error e => .error (.io e)

def bindListener (b : Build) (addr : List Char) : Except UrlError Listening :=
  match strip "tcp://" addr with
  | some tcpAddr => .ok (.listener .tcp (.hostPort tcpAddr))
  | none =>
  match strip "ipc://" addr with
  | some ipcPath => bindIpcListener b .ipc ipcPath
  | none =>
  match strip "ipc2://" addr with
  | some ipcPath => bindIpcListener b .ipc2 ipcPath
  | none =>
  match strip "ws://" addr with
  | some wsAddr =>
      if b.ws then .ok (.listener .ws (.hostPort (beforeSlash wsAddr)))
      else .error (.featureNotEnabled "ws")
  | none =>
  if startsWith "wss://" addr then
    .error (.protocolViolation
      "wss:// requires listen_tls — use listen_tls(addr, cert_pem, key_pem)")
  else if startsWith "tls+tcp://" addr then
    .error (.protocolViolation
      "tls+tcp:// requires listen_tls_tcp — use listen_tls_tcp(addr, cert_pem, key_pem)")
  else if startsWith "udp://" addr then
    .error (.unsupportedScheme "udp:// is not supported for multi-connection sockets")
  else if startsWith "quic://" addr then
    .error (.protocolViolation
      "quic:// requires listen_quic — use listen_quic(addr, cert_pem, key_pem)")
  else
  match strip "vsock://" addr with
  | some vsockAddr =>
      if b.vsock then bindVsockListener vsockAddr else .error (.featureNotEnabled "vsock")
  | none =>
  match strip "kcp://" addr with
  | some kcpAddr =>
      if b.kcp then .ok (bindKcpListener kcpAddr) else .error (.featureNotEnabled "kcp")
  | none => .error (unsupported addr)

/-- `bind_listener_quic`, `bind_listener_tls_tcp` and `bind_listener_tls`: a
listener of one scheme, with `refusal` for every other one. -/
def bindSecureListener (scheme refusal : String) (l : AnyListener) (addr : List Char) :
    Except UrlError Listening :=
  match strip scheme addr with
  | none => .error (.io refusal)
  | some rest => .ok (.listener l (.hostPort (beforeSlash rest)))

def bindListenerQuic : List Char → Except UrlError Listening :=
  bindSecureListener "quic://" "bind_listener_quic requires a quic:// URL" .quic

def bindListenerTlsTcp : List Char → Except UrlError Listening :=
  bindSecureListener "tls+tcp://" "bind_listener_tls_tcp requires a tls+tcp:// URL" .tlsTcp

def bindListenerTls : List Char → Except UrlError Listening :=
  bindSecureListener "wss://" "bind_listener_tls requires a wss:// URL" .wss

def connectStream (c : Crates) (b : Build) (addr : List Char) : Except UrlError Dialing :=
  match strip "tcp://" addr with
  | some tcpAddr => .ok (.stream .tcp (.hostPort tcpAddr) none)
  | none =>
  match strip "ipc://" addr with
  | some ipcPath => connectIpcStream b .ipc ipcPath
  | none =>
  match strip "ipc2://" addr with
  | some ipcPath => connectIpcStream b .ipc2 ipcPath
  | none =>
  match strip "tls+tcp://" addr with
  | some tlsAddr =>
      if b.tlsTcp then connectTlsTcpStream c tlsAddr
      else .error (.featureNotEnabled "tls-tcp")
  | none =>
  match strip "vsock://" addr with
  | some vsockAddr =>
      if b.vsock then connectVsockStream vsockAddr else .error (.featureNotEnabled "vsock")
  | none =>
  match strip "kcp://" addr with
  | some kcpAddr =>
      if b.kcp then .ok (connectKcpStream kcpAddr) else .error (.featureNotEnabled "kcp")
  | none => .error (unsupported addr)

/-- What a build without the feature leaves of a branch is the code behind it. -/
def connectTransport (c : Crates) (b : Build) (addr : List Char) : Except UrlError Dialing :=
  if b.ws && startsWith "ws://" addr then connectWs c addr
  else if b.wss && startsWith "wss://" addr then connectWs c addr
  else
    match b.quic, strip "quic://" addr with
    | true, some quicAddr => connectQuicStream c quicAddr
    | _, _ => connectStream c b addr

def Socket.listen (b : Build) (addr : List Char) : Except UrlError Listening :=
  match b.udp, strip "udp://" addr with
  | true, some udpAddr => .ok (.udp (.hostPort udpAddr))
  | _, _ => bindListener b addr

def Socket.dial (c : Crates) (b : Build) (addr : List Char) : Except UrlError Dialing :=
  match b.udp, strip "udp://" addr with
  | true, some udpAddr => .ok (.udp (.hostPort udpAddr))
  | _, _ => connectTransport c b addr

/-- `dial_tls_tcp`, `dial_quic` and `dial_kcp_with`, as far as the URL goes. -/
def dialOne (scheme refusal : String) (connect : List Char → Except UrlError Dialing)
    (addr : List Char) : Except UrlError Dialing :=
  match strip scheme addr with
  | none => .error (.io refusal)
  | some rest => connect rest

def Socket.dialTlsTcp (c : Crates) : List Char → Except UrlError Dialing :=
  dialOne "tls+tcp://" "dial_tls_tcp requires a tls+tcp:// URL" (connectTlsTcpStream c)

def Socket.dialQuic (c : Crates) : List Char → Except UrlError Dialing :=
  dialOne "quic://" "dial_quic requires a quic:// URL" (connectQuicStream c)

def Socket.dialKcpWith : List Char → Except UrlError Dialing :=
  dialOne "kcp://" "dial_kcp_with requires a kcp:// URL" fun rest =>
    .ok (connectKcpStream rest)

def Socket.listenKcpWith (addr : List Char) : Except UrlError Listening :=
  match strip "kcp://" addr with
  | none => .error (.io "listen_kcp_with requires a kcp:// URL")
  | some rest => .ok (bindKcpListener rest)

/-! ## The ways in -/

/-- The functions that listen. `bind` is what a socket with many connections does. -/
inductive ListenFn where
  | listen
  | bind
  | listenTls
  | listenTlsTcp
  | listenQuic
  | listenKcpWith
  deriving DecidableEq, Repr

/-- The function is part of the build. -/
def ListenFn.built (b : Build) : ListenFn → Bool
  | .listen => true
  | .bind => true
  | .listenTls => b.wss
  | .listenTlsTcp => b.tlsTcp
  | .listenQuic => b.quic
  | .listenKcpWith => b.kcp

def ListenFn.run (b : Build) : ListenFn → List Char → Except UrlError Listening
  | .listen => Socket.listen b
  | .bind => bindListener b
  | .listenTls => bindListenerTls
  | .listenTlsTcp => bindListenerTlsTcp
  | .listenQuic => bindListenerQuic
  | .listenKcpWith => Socket.listenKcpWith

/-- The functions that dial. -/
inductive DialFn where
  | dial
  | dialWithReconnect
  | dialTlsTcp
  | dialQuic
  | dialKcpWith
  deriving DecidableEq, Repr

def DialFn.built (b : Build) : DialFn → Bool
  | .dial => true
  | .dialWithReconnect => true
  | .dialTlsTcp => b.tlsTcp
  | .dialQuic => b.quic
  | .dialKcpWith => b.kcp

def DialFn.run (c : Crates) (b : Build) : DialFn → List Char → Except UrlError Dialing
  | .dial => Socket.dial c b
  | .dialWithReconnect => connectTransport c b
  | .dialTlsTcp => Socket.dialTlsTcp c
  | .dialQuic => Socket.dialQuic c
  | .dialKcpWith => Socket.dialKcpWith

end NngCore.Ref
