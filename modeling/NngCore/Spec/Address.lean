import NngCore.Ref.Address

/-!
# One URL, one place

A URL is a scheme and what stands behind it, and a build either knows the scheme
or does not. That is all there is to it: a URL names a place (`Url.place`), every
function that listens either gets exactly there or nowhere, and every function
that dials asks for the other end of it. Nothing in the source says so: each
function takes the URL apart by itself.

Only dialing has other crates look at the URL, and they take less than listening
does: a host in brackets can be listened on with TLS and is no name for a
certificate. Where a WebSocket client connects to is its own reading of the URL;
for a URL with nothing special in it (`PlainWs`) that is the host and port written
there.

The one address with a format of its own is the one of VSOCK.
-/

namespace NngCore.Spec

open NngCore.Lib NngCore.Ref

/-! ## VSOCK addresses -/

/-- The text is one for the context `n`. -/
inductive SaysCid : UInt32 → List Char → Prop
  | any : SaysCid 4294967295 "any".toList
  | host : SaysCid 2 "host".toList
  | loc : SaysCid 1 "local".toList
  | number {n : UInt32} {s : List Char} (h : Reads n.toNat s) : SaysCid n s

/-- The text is one for the address. -/
def SaysVsock (a : VsockAddr) (s : List Char) : Prop :=
  ∃ cid port, s = cid ++ ':' :: port ∧ SaysCid a.cid cid ∧ Reads a.port.toNat port

/-- What is wrong with a text that is not an address, and what is said of it. -/
inductive NotVsock : List Char → String → Prop
  | noColon {s : List Char} (h : ':' ∉ s) :
      NotVsock s ("invalid vsock address (expected CID:port): " ++ String.ofList s)
  | badCid {cid port : List Char} (hp : ':' ∉ port) (h : ∀ n, ¬ SaysCid n cid) :
      NotVsock (cid ++ ':' :: port) ("invalid vsock CID: " ++ String.ofList cid)
  | badPort {cid port : List Char} {n : UInt32} (hp : ':' ∉ port) (hc : SaysCid n cid)
      (h : ∀ n : UInt32, ¬ Reads n.toNat port) :
      NotVsock (cid ++ ':' :: port) ("invalid vsock port: " ++ String.ofList port)

/-- The address as it is printed. -/
def printed (a : VsockAddr) : List Char :=
  Nat.toDigits 10 a.cid.toNat ++ ':' :: Nat.toDigits 10 a.port.toNat

/-! ## URLs -/

inductive Scheme where
  | tcp
  | ipc
  | ipc2
  | ws
  | wss
  | tlsTcp
  | udp
  | quic
  | vsock
  | kcp
  deriving DecidableEq

def Scheme.text : Scheme → String
  | .tcp => "tcp://"
  | .ipc => "ipc://"
  | .ipc2 => "ipc2://"
  | .ws => "ws://"
  | .wss => "wss://"
  | .tlsTcp => "tls+tcp://"
  | .udp => "udp://"
  | .quic => "quic://"
  | .vsock => "vsock://"
  | .kcp => "kcp://"

/-- The build has the transport. -/
def Scheme.known (b : Build) : Scheme → Bool
  | .tcp => true
  | .ipc => b.unix
  | .ipc2 => b.unix
  | .ws => b.ws
  | .wss => b.wss
  | .tlsTcp => b.tlsTcp
  | .udp => b.udp
  | .quic => b.quic
  | .vsock => b.vsock
  | .kcp => b.kcp

/-- The listener of the scheme; datagrams have none. -/
def Scheme.listener : Scheme → Option AnyListener
  | .tcp => some .tcp
  | .ipc => some .ipc
  | .ipc2 => some .ipc2
  | .ws => some .ws
  | .wss => some .wss
  | .tlsTcp => some .tlsTcp
  | .udp => none
  | .quic => some .quic
  | .vsock => some .vsock
  | .kcp => some .kcp

structure Url where
  scheme : Scheme
  rest : List Char

namespace Url

variable (u : Url)

def text : List Char := u.scheme.text.toList ++ u.rest

/-- The address in the URL. TCP and datagram addresses are not cut at a slash. -/
def addr : Option OsAddr :=
  match u.scheme with
  | .tcp => some (.hostPort u.rest)
  | .udp => some (.hostPort u.rest)
  | .ipc => some (.path u.rest)
  | .ipc2 => some (.path u.rest)
  | .vsock => (parseVsockAddr u.rest).toOption.map .vsock
  | _ => some (.hostPort (beforeSlash u.rest))

/-- The name a certificate is to have. -/
def host : List Char := hostOf (beforeSlash u.rest)

/-- The place the URL names in a build. -/
def place (b : Build) : Option Listening :=
  if u.scheme.known b then
    u.addr.map fun a =>
      match u.scheme.listener with
      | some l => .listener l a
      | none => .udp a
  else none

def client (c : Crates) : Option Dialing :=
  (c.wsConnect u.text).toOption.map fun hp => .ws u.text (.hostPort hp)

/-- What is asked for to get there, if those who are asked take the URL. -/
def call (c : Crates) (b : Build) : Option Dialing :=
  if u.scheme.known b then
    match u.scheme with
    | .tcp => u.addr.map (.stream .tcp · none)
    | .ipc => u.addr.map (.stream .ipc · none)
    | .ipc2 => u.addr.map (.stream .ipc2 · none)
    | .ws => u.client c
    | .wss => u.client c
    | .tlsTcp =>
        if c.serverName u.host then u.addr.map (.stream .tlsTcp · (some u.host)) else none
    | .udp => u.addr.map .udp
    | .quic =>
        if c.quicConnect (beforeSlash u.rest) u.host = none then
          u.addr.map (.stream .quic · (some u.host))
        else none
    | .vsock => u.addr.map (.stream .vsock · none)
    | .kcp => u.addr.map (.stream .kcp · none)
  else none

end Url

/-- What keeps a URL from being dialed, and what is said of it. -/
inductive UrlRefused (c : Crates) : Url → UrlError → Prop
  | tlsTcp {u : Url} (hs : u.scheme = .tlsTcp) (h : c.serverName u.host = false) :
      UrlRefused c u (.io ("invalid TLS server name: " ++ String.ofList u.host))
  | quic {u : Url} {e : String} (hs : u.scheme = .quic)
      (h : c.quicConnect (beforeSlash u.rest) u.host = some e) : UrlRefused c u (.io e)
  | ws {u : Url} {e : String} (hs : u.scheme = .ws ∨ u.scheme = .wss)
      (h : c.wsConnect u.text = .error e) : UrlRefused c u (.io e)

/-! ## URLs with nothing special in them -/

def hostChar (c : Char) : Bool := c.isAlphanum || c = '.' || c = '-'

def pathChar (c : Char) : Bool := hostChar c || c = '_' || c = '/'

/-- A name or an IPv4 address, and a port as it is printed. -/
def PlainHostPort (hp : List Char) : Prop :=
  ∃ host, ∃ port < 65536, hp = host ++ ':' :: Nat.toDigits 10 port ∧ host ≠ [] ∧
    host.all hostChar = true

def PlainPath (path : List Char) : Prop :=
  path = [] ∨ ∃ p, path = '/' :: p ∧ p.all pathChar = true

/-- A WebSocket URL that is `hp` and a path, and not too long for a URL. -/
def PlainWs (u : Url) (hp : List Char) : Prop :=
  (u.scheme = .ws ∨ u.scheme = .wss) ∧ PlainHostPort hp ∧
    (∃ path, u.rest = hp ++ path ∧ PlainPath path) ∧ u.text.length < 65535

/-- The WebSocket client of a build connects to the host and port of a plain URL. -/
def ConnectsPlain (c : Crates) (b : Build) : Prop :=
  ∀ u hp, u.scheme.known b = true → PlainWs u hp → c.wsConnect u.text = .ok hp

/-- The schemes a function is for. -/
def listenable : ListenFn → Scheme → Bool
  | .listen, s => s ≠ .wss ∧ s ≠ .tlsTcp ∧ s ≠ .quic
  | .bind, s => s ≠ .wss ∧ s ≠ .tlsTcp ∧ s ≠ .quic ∧ s ≠ .udp
  | .listenTls, s => s = .wss
  | .listenTlsTcp, s => s = .tlsTcp
  | .listenQuic, s => s = .quic
  | .listenKcpWith, s => s = .kcp

def dialable : DialFn → Scheme → Bool
  | .dial, _ => true
  | .dialWithReconnect, s => s ≠ .udp
  | .dialTlsTcp, s => s = .tlsTcp
  | .dialQuic, s => s = .quic
  | .dialKcpWith, s => s = .kcp

/-- A name taken out of an address: what comes before its last colon. -/
def NamesHost (host : Option (List Char)) (a : OsAddr) : Prop :=
  ∀ name, host = some name →
    ∃ hp, a = .hostPort hp ∧
      (':' ∉ hp ∧ name = hp ∨ ∃ port, ':' ∉ port ∧ hp = name ++ ':' :: port)

/-- A dialer asks for the other end of what a listener has: the same address, and
a stream of the same kind on it. -/
inductive Meets : Listening → Dialing → Prop
  | stream {l : AnyListener} {s : AnyStream} {a : OsAddr} {host : Option (List Char)}
      (hkind : l.stream = some s) (hhost : NamesHost host a) :
      Meets (.listener l a) (.stream s a host)
  | ws (rest : List Char) (a : OsAddr) :
      Meets (.listener .ws a) (.ws ("ws://".toList ++ rest) a)
  | wss (rest : List Char) (a : OsAddr) :
      Meets (.listener .wss a) (.ws ("wss://".toList ++ rest) a)
  | udp (a : OsAddr) : Meets (.udp a) (.udp a)

/-- The name of the function in the source. -/
def sourceName : ListenFn → String
  | .listen => "listen"
  | .bind => "bind_listener"
  | .listenTls => "listen_tls"
  | .listenTlsTcp => "listen_tls_tcp"
  | .listenQuic => "listen_quic"
  | .listenKcpWith => "listen_kcp_with"

/-- What `listen` says of a scheme that has a function of its own. -/
def requires (s : Scheme) (f : ListenFn) : String :=
  s.text ++ " requires " ++ sourceName f ++ " — use " ++ sourceName f ++
    "(addr, cert_pem, key_pem)"

/-- A function of the build that listens gets to `l`. -/
def Listens (b : Build) (addr : List Char) (f : ListenFn) (l : Listening) : Prop :=
  f.built b = true ∧ f.run b addr = .ok l

/-- A function of the build that dials asks for `d`. -/
def Dials (c : Crates) (b : Build) (addr : List Char) (g : DialFn) (d : Dialing) : Prop :=
  g.built b = true ∧ g.run c b addr = .ok d

structure OnePlace (c : Crates) (b : Build) (addr : List Char) : Prop where
  listening : ∀ {f f' l l'}, Listens b addr f l → Listens b addr f' l' → l = l'
  dialing : ∀ {g g' d d'}, Dials c b addr g d → Dials c b addr g' d' → d = d'
  meets : ∀ {f g l d}, Listens b addr f l → Dials c b addr g d →
    (∀ u : Url, addr = u.text → u.scheme = .ws ∨ u.scheme = .wss → ∃ hp, PlainWs u hp) →
    Meets l d
  -- a WebSocket client is given the URL as it is
  handed : ∀ {g url a}, Dials c b addr g (.ws url a) → url = addr
  framing : ∀ {f g l d}, Listens b addr f l → Dials c b addr g d → l.format = d.format
  -- a URL that can be listened on can be dialed, or is refused for what is in it
  reached : (∃ d, Dials c b addr .dial d) ↔
    (∃ f l, Listens b addr f l) ∧ ∀ u e, addr = u.text → ¬ UrlRefused c u e
  refused : ∀ {f l e}, Listens b addr f l → DialFn.run c b .dial addr = .error e →
    ∃ u, addr = u.text ∧ UrlRefused c u e
  -- a socket that redials is on a connection, never on datagrams
  redialed : (∃ d, Dials c b addr .dialWithReconnect d) ↔
    (∃ f l a, Listens b addr f (.listener l a)) ∧ ∀ u e, addr = u.text → ¬ UrlRefused c u e
  -- where `listen` refuses what another function takes, it names the function
  told : ∀ {f l e}, Listens b addr f l → ListenFn.run b .listen addr = .error e →
    ∃ u : Url, addr = u.text ∧ e = .protocolViolation (requires u.scheme f)

end NngCore.Spec
