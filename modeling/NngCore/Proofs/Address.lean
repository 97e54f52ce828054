import Mathlib.Data.List.Basic
import NngCore.Spec.Address

/-!
# One URL, one place

No scheme is the beginning of another one, so the order of the tests in a chain
does not matter. Each function is then looked at once, scheme by scheme, and
compared with the place the URL names; what two functions make of a URL is never
compared directly.

For a VSOCK address the two parsers of the library already say which texts they
take. The port has no colon in it, so the last colon is the one in the middle.
-/

namespace NngCore.Proofs

open NngCore.Lib NngCore.Ref NngCore.Spec

/-! ## VSOCK addresses -/

theorem parseU32_eq_some_iff {n : UInt32} {s : List Char} :
    parseU32 s = some n ↔ Reads n.toNat s := by
  rw [parseU32, Option.map_eq_some_iff]
  constructor
  · rintro ⟨m, hm, rfl⟩
    obtain ⟨hreads, hlt⟩ := (parseUnsigned_eq_some_iff (by decide)).mp hm
    rwa [UInt32.toNat_ofNat_of_lt' hlt]
  · intro h
    exact ⟨n.toNat, (parseUnsigned_eq_some_iff (by decide)).mpr ⟨h, n.toNat_lt⟩,
      UInt32.ofNat_toNat⟩

theorem parseU32_eq_none_iff {s : List Char} :
    parseU32 s = none ↔ ∀ n : UInt32, ¬ Reads n.toNat s := by
  rw [Option.eq_none_iff_forall_ne_some]
  exact forall_congr' fun n => not_congr parseU32_eq_some_iff

/-- The three words are no numbers, so the order they are tried in does not show. -/
theorem parseCid_eq_some_iff {n : UInt32} {s : List Char} :
    parseCid s = some n ↔ SaysCid n s := by
  rw [parseCid]
  constructor
  · intro h
    split at h
    next hs =>
      cases h
      exact hs ▸ .any
    next =>
      split at h
      next hs =>
        cases h
        exact hs ▸ .host
      next =>
        split at h
        next hs =>
          cases h
          exact hs ▸ .loc
        next => exact .number (parseU32_eq_some_iff.mp h)
  · intro h
    cases h with
    | any => rfl
    | host => rfl
    | loc => rfl
    | number h =>
        have ha : 'a' ∉ s := h.not_mem rfl (by decide)
        have ho : 'o' ∉ s := h.not_mem rfl (by decide)
        have hany : s ≠ "any".toList := by rintro rfl; exact ha (by decide)
        have hhost : s ≠ "host".toList := by rintro rfl; exact ho (by decide)
        have hlocal : s ≠ "local".toList := by rintro rfl; exact ha (by decide)
        rw [if_neg hany, if_neg hhost, if_neg hlocal, parseU32_eq_some_iff]
        exact h

theorem parseCid_eq_none_iff {s : List Char} :
    parseCid s = none ↔ ∀ n, ¬ SaysCid n s := by
  rw [Option.eq_none_iff_forall_ne_some]
  exact forall_congr' fun n => not_congr parseCid_eq_some_iff

/-- Every text is an address or is refused for a reason. -/
theorem parseVsockAddr_cases (s : List Char) :
    (∃ a, parseVsockAddr s = .ok a ∧ SaysVsock a s) ∨
    ∃ e, parseVsockAddr s = .error e ∧ NotVsock s e := by
  rw [parseVsockAddr]
  cases hcut : rsplitOnce ':' s with
  | none => exact .inr ⟨_, rfl, .noColon (rsplitOnce_eq_none_iff.mp hcut)⟩
  | some pieces =>
      obtain ⟨cid, port⟩ := pieces
      obtain ⟨rfl, hport⟩ := rsplitOnce_eq_some_iff.mp hcut
      cases hc : parseCid cid with
      | none =>
          simp only [hc]
          exact .inr ⟨_, rfl, .badCid hport (parseCid_eq_none_iff.mp hc)⟩
      | some n =>
          have hn := parseCid_eq_some_iff.mp hc
          cases hp : parseU32 port with
          | none =>
              simp only [hc, hp]
              exact .inr ⟨_, rfl, .badPort hport hn (parseU32_eq_none_iff.mp hp)⟩
          | some m =>
              simp only [hc, hp]
              exact .inl ⟨_, rfl, cid, port, rfl, hn, parseU32_eq_some_iff.mp hp⟩

theorem parseVsockAddr_of_says {a : VsockAddr} {s : List Char} (h : SaysVsock a s) :
    parseVsockAddr s = .ok a := by
  obtain ⟨cid, port, rfl, hc, hp⟩ := h
  have hport : ':' ∉ port := hp.not_mem rfl (by decide)
  rw [parseVsockAddr, rsplitOnce_append hport]
  simp only [parseCid_eq_some_iff.mpr hc, parseU32_eq_some_iff.mpr hp]

theorem parseVsockAddr_of_not {s : List Char} {e : String} (h : NotVsock s e) :
    parseVsockAddr s = .error e := by
  rw [parseVsockAddr]
  cases h with
  | noColon h => rw [rsplitOnce_eq_none_iff.mpr h]
  | badCid hp h =>
      rw [rsplitOnce_append hp]
      simp only [parseCid_eq_none_iff.mpr h]
  | badPort hp hc h =>
      rw [rsplitOnce_append hp]
      simp only [parseCid_eq_some_iff.mpr hc, parseU32_eq_none_iff.mpr h]

theorem parseVsockAddr_ok_iff {a : VsockAddr} {s : List Char} :
    parseVsockAddr s = .ok a ↔ SaysVsock a s := by
  refine ⟨fun h => ?_, parseVsockAddr_of_says⟩
  rcases parseVsockAddr_cases s with ⟨a', ha, hsays⟩ | ⟨e, he, -⟩
  · rw [h] at ha
    cases ha
    exact hsays
  · rw [h] at he
    cases he

theorem parseVsockAddr_error_iff {s : List Char} {e : String} :
    parseVsockAddr s = .error e ↔ NotVsock s e := by
  refine ⟨fun h => ?_, parseVsockAddr_of_not⟩
  rcases parseVsockAddr_cases s with ⟨a, ha, -⟩ | ⟨e', he, hnot⟩
  · rw [h] at ha
    cases ha
  · rw [h] at he
    cases he
    exact hnot

/-- An address is read from the texts that say it and from no other, whatever else
is refused with the first thing that is wrong with it, and what is printed of an
address says it. -/
theorem vsock_addr_exact (s : List Char) (a : VsockAddr) (e : String) :
    (parseVsockAddr s = .ok a ↔ SaysVsock a s) ∧
      (parseVsockAddr s = .error e ↔ NotVsock s e) ∧
      parseVsockAddr (printed a) = .ok a :=
  ⟨parseVsockAddr_ok_iff, parseVsockAddr_error_iff,
    parseVsockAddr_of_says ⟨_, _, rfl, .number (reads_toDigits _), reads_toDigits _⟩⟩

example : parseVsockAddr "host:+05555".toList = .ok ⟨2, 5555⟩ := by decide

/-! ## URLs -/

theorem strip_text (s : Scheme) (u : Url) :
    strip s.text u.text = if s = u.scheme then some u.rest else none := by
  obtain ⟨scheme, rest⟩ := u
  cases s <;> cases scheme <;> simp only [Scheme.text, Url.text] <;> rfl

theorem text_injective {u v : Url} (h : u.text = v.text) : u = v := by
  have hu := strip_text u.scheme u
  rw [if_pos rfl, h, strip_text] at hu
  split at hu
  next hs =>
    obtain ⟨s, r⟩ := u
    obtain ⟨s', r'⟩ := v
    cases hs
    cases hu
    rfl
  next => cases hu

theorem strip_text_of_ne {s : Scheme} {u : Url} (h : s ≠ u.scheme) :
    strip s.text u.text = none := by
  rw [strip_text, if_neg h]

/-- A text is a URL, or no test of any chain succeeds. -/
theorem url_or_none (addr : List Char) :
    (∃ u : Url, addr = u.text) ∨ ∀ s : Scheme, strip s.text addr = none := by
  by_cases h : ∀ s : Scheme, strip s.text addr = none
  · exact .inr h
  · obtain ⟨s, hs⟩ := not_forall.mp h
    obtain ⟨rest, hrest⟩ := Option.ne_none_iff_exists'.mp hs
    exact .inl ⟨⟨s, rest⟩, (List.isPrefixOf?_eq_some_iff_append_eq.mp hrest).symm⟩

/-! ## Listening -/

section

variable (b : Build)

theorem bindVsockListener_toOption (s : List Char) :
    (bindVsockListener s).toOption =
      ((parseVsockAddr s).toOption.map .vsock).map (.listener .vsock) := by
  rw [bindVsockListener]
  cases parseVsockAddr s <;> rfl

theorem bindListener_text (u : Url) :
    (bindListener b u.text).toOption =
      if listenable .bind u.scheme then u.place b else none := by
  obtain ⟨scheme, rest⟩ := u
  obtain ⟨unix, ws, wss, tlsTcp, quic, vsock, kcp, udp, hws⟩ := b
  cases scheme <;> simp only [Url.text, Scheme.text]
  case tcp => rfl
  case ipc => cases unix <;> rfl
  case ipc2 => cases unix <;> rfl
  case ws => cases ws <;> rfl
  case wss => rfl
  case tlsTcp => rfl
  case udp => rfl
  case quic => rfl
  case vsock =>
    cases vsock with
    | false => rfl
    | true => exact bindVsockListener_toOption rest
  case kcp => cases kcp <;> rfl

variable {b}

theorem listen_eq_bindListener {addr : List Char} (h : strip (Scheme.text .udp) addr = none) :
    Socket.listen b addr = bindListener b addr := by
  have hudp : strip "udp://" addr = none := h
  rw [Socket.listen, hudp]
  cases b.udp <;> rfl

theorem listen_text (u : Url) :
    (Socket.listen b u.text).toOption =
      if listenable .listen u.scheme then u.place b else none := by
  by_cases hs : Scheme.udp = u.scheme
  · obtain ⟨scheme, rest⟩ := u
    obtain ⟨unix, ws, wss, tlsTcp, quic, vsock, kcp, udp, hws⟩ := b
    cases hs
    simp only [Url.text, Scheme.text]
    cases udp <;> rfl
  · rw [listen_eq_bindListener (strip_text_of_ne hs), bindListener_text]
    simp only [listenable]
    grind

/-- The functions for one scheme. -/
theorem bindSecureListener_text {s : Scheme} {l : AnyListener} {refusal : String} (u : Url)
    (hl : s.listener = some l) (hknown : s.known b = true)
    (haddr : s = u.scheme → u.addr = some (.hostPort (beforeSlash u.rest))) :
    (bindSecureListener s.text refusal l u.text).toOption =
      if u.scheme = s then u.place b else none := by
  rw [bindSecureListener, strip_text]
  by_cases hs : s = u.scheme
  · rw [if_pos hs, if_pos hs.symm, Url.place, ← hs, if_pos hknown, haddr hs, hl]
    rfl
  · rw [if_neg hs, if_neg (fun h => hs h.symm)]
    rfl

/-- A function that listens gets to the place the URL names, if it is for the
scheme at all. -/
theorem listenFn_text {f : ListenFn} (hf : f.built b = true) (u : Url) :
    (f.run b u.text).toOption = if listenable f u.scheme then u.place b else none := by
  cases f with
  | listen => exact listen_text u
  | bind => exact bindListener_text b u
  | listenTls =>
      refine (bindSecureListener_text (s := .wss) u rfl hf fun h => ?_).trans ?_
      · rw [Url.addr, ← h]
      · simp only [listenable, decide_eq_true_eq]
  | listenTlsTcp =>
      refine (bindSecureListener_text (s := .tlsTcp) u rfl hf fun h => ?_).trans ?_
      · rw [Url.addr, ← h]
      · simp only [listenable, decide_eq_true_eq]
  | listenQuic =>
      refine (bindSecureListener_text (s := .quic) u rfl hf fun h => ?_).trans ?_
      · rw [Url.addr, ← h]
      · simp only [listenable, decide_eq_true_eq]
  | listenKcpWith =>
      have heq : ListenFn.run b .listenKcpWith u.text = bindSecureListener "kcp://"
          "listen_kcp_with requires a kcp:// URL" .kcp u.text := rfl
      rw [heq]
      refine (bindSecureListener_text (s := .kcp) u rfl hf fun h => ?_).trans ?_
      · rw [Url.addr, ← h]
      · simp only [listenable, decide_eq_true_eq]

/-- No function listens on what is not a URL. -/
theorem not_listens {addr : List Char} (h : ∀ s : Scheme, strip s.text addr = none)
    (f : ListenFn) (l : Listening) : f.run b addr ≠ .ok l := by
  have hbind : bindListener b addr = .error (unsupported addr) := by
    have hno : ∀ s : Scheme, startsWith s.text addr = false := by
      intro s
      rw [startsWith, h s]
      rfl
    have htcp := h .tcp
    have hipc := h .ipc
    have hipc2 := h .ipc2
    have hws := h .ws
    have hwss := hno .wss
    have htls := hno .tlsTcp
    have hudp := hno .udp
    have hquic := hno .quic
    have hvsock := h .vsock
    have hkcp := h .kcp
    simp only [Scheme.text] at htcp hipc hipc2 hws hwss htls hudp hquic hvsock hkcp
    simp only [bindListener, htcp, hipc, hipc2, hws, hwss, htls, hudp, hquic, hvsock, hkcp,
      Bool.false_eq_true, if_false]
  have hone : ∀ (s : Scheme) (refusal : String) (l' : AnyListener),
      bindSecureListener s.text refusal l' addr = .error (.io refusal) := by
    intro s refusal l'
    rw [bindSecureListener, h s]
  intro hok
  cases f with
  | listen =>
      rw [ListenFn.run, listen_eq_bindListener (h .udp), hbind] at hok
      cases hok
  | bind =>
      rw [ListenFn.run, hbind] at hok
      cases hok
  | listenTls => cases (hone .wss _ _).symm.trans hok
  | listenTlsTcp => cases (hone .tlsTcp _ _).symm.trans hok
  | listenQuic => cases (hone .quic _ _).symm.trans hok
  | listenKcpWith => cases (hone .kcp _ _).symm.trans hok

/-! ## Dialing -/

variable {c : Crates}

theorem connectTlsTcpStream_toOption (s : List Char) :
    (connectTlsTcpStream c s).toOption =
      if c.serverName (hostOf (beforeSlash s)) then
        some (.stream .tlsTcp (.hostPort (beforeSlash s)) (some (hostOf (beforeSlash s))))
      else none := by
  simp only [connectTlsTcpStream]
  split <;> rfl

theorem connectQuicStream_toOption (s : List Char) :
    (connectQuicStream c s).toOption =
      if c.quicConnect (beforeSlash s) (hostOf (beforeSlash s)) = none then
        some (.stream .quic (.hostPort (beforeSlash s)) (some (hostOf (beforeSlash s))))
      else none := by
  simp only [connectQuicStream]
  cases c.quicConnect (beforeSlash s) (hostOf (beforeSlash s)) <;> rfl

theorem connectWs_toOption (url : List Char) :
    (connectWs c url).toOption =
      (c.wsConnect url).toOption.map fun hp => .ws url (.hostPort hp) := by
  rw [connectWs]
  cases c.wsConnect url <;> rfl

theorem connectVsockStream_toOption (s : List Char) :
    (connectVsockStream s).toOption =
      ((parseVsockAddr s).toOption.map .vsock).map fun a => .stream .vsock a none := by
  rw [connectVsockStream]
  cases parseVsockAddr s <;> rfl

/-- The schemes `connect_stream` leaves to its callers. -/
def leftToCallers (s : Scheme) : Bool := s = .ws ∨ s = .wss ∨ s = .quic ∨ s = .udp

theorem connectStream_text (u : Url) :
    (connectStream c b u.text).toOption =
      if leftToCallers u.scheme then none else u.call c b := by
  obtain ⟨scheme, rest⟩ := u
  obtain ⟨unix, ws, wss, tlsTcp, quic, vsock, kcp, udp, hws⟩ := b
  cases scheme <;> simp only [Url.text, Scheme.text]
  case tcp => rfl
  case ipc => cases unix <;> rfl
  case ipc2 => cases unix <;> rfl
  case ws => rfl
  case wss => rfl
  case tlsTcp =>
    cases tlsTcp with
    | false => rfl
    | true => exact connectTlsTcpStream_toOption rest
  case udp => rfl
  case quic => rfl
  case vsock =>
    cases vsock with
    | false => rfl
    | true => exact connectVsockStream_toOption rest
  case kcp => cases kcp <;> rfl

theorem connectTransport_eq_connectStream {addr : List Char}
    (hws : strip (Scheme.text .ws) addr = none) (hwss : strip (Scheme.text .wss) addr = none)
    (hquic : strip (Scheme.text .quic) addr = none) :
    connectTransport c b addr = connectStream c b addr := by
  have h₁ : startsWith "ws://" addr = false := by rw [startsWith]; exact hws ▸ rfl
  have h₂ : startsWith "wss://" addr = false := by rw [startsWith]; exact hwss ▸ rfl
  have h₃ : strip "quic://" addr = none := hquic
  rw [connectTransport, h₁, h₂, h₃]
  cases b.ws <;> cases b.wss <;> cases b.quic <;> rfl

theorem connectTransport_text (u : Url) :
    (connectTransport c b u.text).toOption =
      if dialable .dialWithReconnect u.scheme then u.call c b else none := by
  by_cases hs : u.scheme = .ws ∨ u.scheme = .wss ∨ u.scheme = .quic
  · obtain ⟨scheme, rest⟩ := u
    obtain ⟨unix, ws, wss, tlsTcp, quic, vsock, kcp, udp, hws⟩ := b
    rcases hs with h | h | h <;> cases h <;> simp only [Url.text, Scheme.text]
    · cases ws with
      | false => cases wss <;> cases quic <;> rfl
      | true => exact connectWs_toOption _
    · cases wss with
      | false => cases ws <;> cases quic <;> rfl
      | true => cases ws <;> exact connectWs_toOption _
    · cases quic with
      | false => cases ws <;> cases wss <;> rfl
      | true => cases ws <;> cases wss <;> exact connectQuicStream_toOption rest
  · have hne : .ws ≠ u.scheme ∧ .wss ≠ u.scheme ∧ .quic ≠ u.scheme := by grind
    rw [connectTransport_eq_connectStream (strip_text_of_ne hne.1) (strip_text_of_ne hne.2.1)
      (strip_text_of_ne hne.2.2), connectStream_text]
    simp only [leftToCallers, dialable]
    grind

theorem dial_eq_connectTransport {addr : List Char}
    (h : strip (Scheme.text .udp) addr = none) :
    Socket.dial c b addr = connectTransport c b addr := by
  have hudp : strip "udp://" addr = none := h
  rw [Socket.dial, hudp]
  cases b.udp <;> rfl

theorem dial_text (u : Url) : (Socket.dial c b u.text).toOption = u.call c b := by
  by_cases hs : Scheme.udp = u.scheme
  · obtain ⟨scheme, rest⟩ := u
    obtain ⟨unix, ws, wss, tlsTcp, quic, vsock, kcp, udp, hws⟩ := b
    cases hs
    simp only [Url.text, Scheme.text]
    cases udp <;> cases ws <;> cases wss <;> cases quic <;> rfl
  · rw [dial_eq_connectTransport (strip_text_of_ne hs), connectTransport_text]
    simp only [dialable]
    grind

theorem dialOne_text {s : Scheme} {refusal : String}
    {connect : List Char → Except UrlError Dialing} (u : Url)
    (hcall : s = u.scheme → (connect u.rest).toOption = u.call c b) :
    (dialOne s.text refusal connect u.text).toOption =
      if u.scheme = s then u.call c b else none := by
  rw [dialOne, strip_text]
  by_cases hs : s = u.scheme
  · rw [if_pos hs, if_pos hs.symm]
    exact hcall hs
  · rw [if_neg hs, if_neg (fun h => hs h.symm)]
    rfl

/-- A function that dials asks for the place the URL names, if it is for the
scheme at all. -/
theorem dialFn_text {g : DialFn} (hg : g.built b = true) (u : Url) :
    (g.run c b u.text).toOption = if dialable g u.scheme then u.call c b else none := by
  cases g with
  | dial => exact dial_text u
  | dialWithReconnect => exact connectTransport_text u
  | dialTlsTcp =>
      refine (dialOne_text (c := c) (b := b) (s := .tlsTcp) u fun h => ?_).trans ?_
      · rw [connectTlsTcpStream_toOption, Url.call, Url.addr, ← h]
        exact (if_pos hg).symm
      · simp only [dialable, decide_eq_true_eq]
  | dialQuic =>
      refine (dialOne_text (c := c) (b := b) (s := .quic) u fun h => ?_).trans ?_
      · rw [connectQuicStream_toOption, Url.call, Url.addr, ← h]
        exact (if_pos hg).symm
      · simp only [dialable, decide_eq_true_eq]
  | dialKcpWith =>
      refine (dialOne_text (c := c) (b := b) (s := .kcp) u fun h => ?_).trans ?_
      · rw [Url.call, Url.addr, ← h]
        exact (if_pos hg).symm
      · simp only [dialable, decide_eq_true_eq]

/-- No function dials what is not a URL. -/
theorem not_dials {addr : List Char} (h : ∀ s : Scheme, strip s.text addr = none)
    (g : DialFn) (d : Dialing) : g.run c b addr ≠ .ok d := by
  have hconn : connectTransport c b addr = .error (unsupported addr) := by
    have htcp := h .tcp
    have hipc := h .ipc
    have hipc2 := h .ipc2
    have htls := h .tlsTcp
    have hvsock := h .vsock
    have hkcp := h .kcp
    simp only [Scheme.text] at htcp hipc hipc2 htls hvsock hkcp
    rw [connectTransport_eq_connectStream (h .ws) (h .wss) (h .quic)]
    simp only [connectStream, htcp, hipc, hipc2, htls, hvsock, hkcp]
  have hone : ∀ (s : Scheme) (refusal : String)
      (connect : List Char → Except UrlError Dialing),
      dialOne s.text refusal connect addr = .error (.io refusal) := by
    intro s refusal connect
    rw [dialOne, h s]
  intro hok
  cases g with
  | dial =>
      rw [DialFn.run, dial_eq_connectTransport (h .udp), hconn] at hok
      cases hok
  | dialWithReconnect =>
      rw [DialFn.run, hconn] at hok
      cases hok
  | dialTlsTcp => cases (hone .tlsTcp _ _).symm.trans hok
  | dialQuic => cases (hone .quic _ _).symm.trans hok
  | dialKcpWith => cases (hone .kcp _ _).symm.trans hok

/-! ## The place in between -/

theorem ok_iff_toOption {ε α : Type} {r : Except ε α} {x : α} :
    r = .ok x ↔ r.toOption = some x := by
  cases r with
  | error e => simp [Except.toOption]
  | ok y => simp [Except.toOption]

theorem listens_text_iff {f : ListenFn} {l : Listening} (u : Url) :
    Listens b u.text f l ↔
      f.built b = true ∧ listenable f u.scheme = true ∧ u.place b = some l := by
  rw [Listens]
  refine and_congr_right fun hf => ?_
  rw [ok_iff_toOption, listenFn_text hf]
  grind

theorem dials_text_iff {g : DialFn} {d : Dialing} (u : Url) :
    Dials c b u.text g d ↔
      g.built b = true ∧ dialable g u.scheme = true ∧ u.call c b = some d := by
  rw [Dials]
  refine and_congr_right fun hg => ?_
  rw [ok_iff_toOption, dialFn_text hg]
  grind

theorem listens_url {addr : List Char} {f : ListenFn} {l : Listening}
    (h : Listens b addr f l) : ∃ u : Url, addr = u.text := by
  rcases url_or_none addr with hu | hno
  · exact hu
  · exact absurd h.2 (not_listens hno f l)

theorem dials_url {addr : List Char} {g : DialFn} {d : Dialing}
    (h : Dials c b addr g d) : ∃ u : Url, addr = u.text := by
  rcases url_or_none addr with hu | hno
  · exact hu
  · exact absurd h.2 (not_dials hno g d)

/-- The function for the scheme. -/
def listenFnOf : Scheme → ListenFn
  | .wss => .listenTls
  | .tlsTcp => .listenTlsTcp
  | .quic => .listenQuic
  | _ => .listen

theorem place_eq_some {u : Url} {l : Listening} (h : u.place b = some l) :
    u.scheme.known b = true ∧ ∃ a, u.addr = some a ∧
      l = match u.scheme.listener with
        | some l => .listener l a
        | none => .udp a := by
  rw [Url.place] at h
  split at h
  next hknown =>
    obtain ⟨a, ha, rfl⟩ := Option.map_eq_some_iff.mp h
    exact ⟨hknown, a, ha, rfl⟩
  next => cases h

theorem listens_of_place {u : Url} {l : Listening} (h : u.place b = some l) :
    Listens b u.text (listenFnOf u.scheme) l := by
  rw [listens_text_iff]
  have hknown := (place_eq_some h).1
  obtain ⟨scheme, rest⟩ := u
  cases scheme <;> first | exact ⟨hknown, rfl, h⟩ | exact ⟨rfl, rfl, h⟩

/-! ### What is refused

Those who are asked to connect either take the URL or say why not, so what they
take is all that can be said of a URL with a place. -/

def urlTaken (c : Crates) (u : Url) : Bool :=
  match u.scheme with
  | .tlsTcp => c.serverName u.host
  | .quic => (c.quicConnect (beforeSlash u.rest) u.host).isNone
  | .ws => (c.wsConnect u.text).toOption.isSome
  | .wss => (c.wsConnect u.text).toOption.isSome
  | _ => true

theorem urlRefused_not_taken {u : Url} {e : UrlError} (h : UrlRefused c u e) :
    urlTaken c u = false := by
  cases h with
  | tlsTcp hs h => simp only [urlTaken, hs, h]
  | quic hs h => simp only [urlTaken, hs, h, Option.isNone_some]
  | ws hs h =>
      rcases hs with hs | hs <;> simp only [urlTaken, hs, h] <;> rfl

theorem exists_refused {u : Url} (h : urlTaken c u = false) : ∃ e, UrlRefused c u e := by
  have hclient : (c.wsConnect u.text).toOption.isSome = false →
      ∃ e, c.wsConnect u.text = .error e := by
    cases c.wsConnect u.text with
    | ok hp => nofun
    | error e => exact fun _ => ⟨e, rfl⟩
  obtain ⟨scheme, rest⟩ := u
  cases scheme with
  | tlsTcp => exact ⟨_, .tlsTcp rfl h⟩
  | quic =>
      obtain ⟨e, he⟩ := Option.isSome_iff_exists.mp (Option.isNone_eq_false_iff.mp h)
      exact ⟨_, .quic rfl he⟩
  | ws =>
      obtain ⟨e, he⟩ := hclient h
      exact ⟨_, .ws (.inl rfl) he⟩
  | wss =>
      obtain ⟨e, he⟩ := hclient h
      exact ⟨_, .ws (.inr rfl) he⟩
  | tcp => cases h
  | ipc => cases h
  | ipc2 => cases h
  | udp => cases h
  | vsock => cases h
  | kcp => cases h

theorem urlTaken_iff {u : Url} : urlTaken c u = true ↔ ∀ e, ¬ UrlRefused c u e := by
  constructor
  · intro h e he
    rw [urlRefused_not_taken he] at h
    cases h
  · intro h
    by_contra hno
    obtain ⟨e, he⟩ := exists_refused (Bool.not_eq_true _ ▸ hno)
    exact h e he

/-- A place can be dialed if nothing about the URL is refused. -/
theorem call_isSome (u : Url) :
    (u.call c b).isSome = ((u.place b).isSome && urlTaken c u) := by
  rw [Url.call, Url.place]
  split
  · rw [Option.isSome_map]
    obtain ⟨scheme, rest⟩ := u
    cases scheme with
    | ws => exact Option.isSome_map
    | wss => exact Option.isSome_map
    | tlsTcp =>
        simp only [urlTaken]
        cases c.serverName (Url.host ⟨.tlsTcp, rest⟩) <;> rfl
    | quic =>
        simp only [urlTaken]
        cases c.quicConnect (beforeSlash rest) (Url.host ⟨.quic, rest⟩) <;> rfl
    | vsock => exact Option.isSome_map.trans (Bool.and_true _).symm
    | tcp => rfl
    | ipc => rfl
    | ipc2 => rfl
    | udp => rfl
    | kcp => rfl
  · rfl

theorem call_iff_place {u : Url} :
    (∃ d, u.call c b = some d) ↔ (∃ l, u.place b = some l) ∧ ∀ e, ¬ UrlRefused c u e := by
  rw [← Option.isSome_iff_exists, ← Option.isSome_iff_exists, ← urlTaken_iff, call_isSome,
    Bool.and_eq_true]

/-- The connectors that may refuse a URL, where `dial` comes to them. -/
theorem dial_connector {u : Url} (hknown : u.scheme.known b = true) :
    (u.scheme = .tlsTcp → Socket.dial c b u.text = connectTlsTcpStream c u.rest) ∧
    (u.scheme = .quic → Socket.dial c b u.text = connectQuicStream c u.rest) ∧
    (u.scheme = .ws ∨ u.scheme = .wss → Socket.dial c b u.text = connectWs c u.text) := by
  obtain ⟨scheme, rest⟩ := u
  obtain ⟨unix, ws, wss, tlsTcp, quic, vsock, kcp, udp, hws⟩ := b
  refine ⟨?_, ?_, ?_⟩
  · rintro ⟨⟩
    cases (show tlsTcp = true from hknown)
    simp only [Url.text, Scheme.text]
    cases udp <;> cases ws <;> cases wss <;> cases quic <;> rfl
  · rintro ⟨⟩
    cases (show quic = true from hknown)
    simp only [Url.text, Scheme.text]
    cases udp <;> cases ws <;> cases wss <;> rfl
  · rintro (⟨⟨⟩⟩ | ⟨⟨⟩⟩)
    · cases (show ws = true from hknown)
      simp only [Url.text, Scheme.text]
      cases udp <;> rfl
    · cases (show wss = true from hknown)
      simp only [Url.text, Scheme.text]
      cases udp <;> cases ws <;> rfl

/-- Where a place is not dialed, its URL was refused. -/
theorem dial_refuses {u : Url} {l : Listening} {e : UrlError} (hl : u.place b = some l)
    (he : Socket.dial c b u.text = .error e) : UrlRefused c u e := by
  obtain ⟨htls, hquic, hws⟩ := dial_connector (c := c) (place_eq_some hl).1
  cases ht : urlTaken c u with
  | true =>
      obtain ⟨d, hd⟩ := call_iff_place.mpr ⟨⟨l, hl⟩, urlTaken_iff.mp ht⟩
      rw [← dial_text, he] at hd
      cases hd
  | false =>
      obtain ⟨e', hr⟩ := exists_refused ht
      cases hr with
      | tlsTcp hs h =>
          rw [htls hs, connectTlsTcpStream] at he
          simp only [Url.host] at h
          simp only [h, Bool.false_eq_true, if_false] at he
          cases he
          exact .tlsTcp hs h
      | quic hs h =>
          rw [hquic hs, connectQuicStream] at he
          simp only [Url.host] at h
          simp only [h] at he
          cases he
          exact .quic hs h
      | ws hs h =>
          rw [hws hs, connectWs, h] at he
          cases he
          exact .ws hs h

/-- Only datagrams are without a listener. -/
theorem place_listener_iff {u : Url} {l : Listening} (h : u.place b = some l) :
    (∃ l' a, l = .listener l' a) ↔ u.scheme ≠ .udp := by
  obtain ⟨-, a, -, rfl⟩ := place_eq_some h
  obtain ⟨scheme, rest⟩ := u
  cases scheme <;> simp [Scheme.listener]

theorem namesHost_hostOf (addr : List Char) :
    NamesHost (some (hostOf addr)) (.hostPort addr) := by
  rintro name ⟨⟩
  refine ⟨addr, rfl, ?_⟩
  rw [hostOf]
  cases hcut : rsplitOnce ':' addr with
  | none => exact .inl ⟨rsplitOnce_eq_none_iff.mp hcut, rfl⟩
  | some pieces =>
      obtain ⟨host, port⟩ := pieces
      obtain ⟨haddr, hport⟩ := rsplitOnce_eq_some_iff.mp hcut
      exact .inr ⟨port, hport, haddr⟩

theorem namesHost_none (a : OsAddr) : NamesHost none a := fun _ h => by cases h

/-- Who is asked to get to a place: the WebSocket client, or whoever connects to the
address in the URL, by a stream of the listener's kind or by datagrams. -/
theorem call_eq_some {u : Url} {d : Dialing} (h : u.call c b = some d) :
    u.scheme.known b = true ∧
      ((u.scheme = .ws ∨ u.scheme = .wss) ∧ u.client c = some d ∨
        ∃ a, u.addr = some a ∧
          (u.scheme.listener = none ∧ d = .udp a ∨
            ∃ l s host, u.scheme.listener = some l ∧ l.stream = some s ∧
              NamesHost host a ∧ d = .stream s a host)) := by
  rw [Url.call] at h
  split at h
  next hknown =>
    refine ⟨hknown, ?_⟩
    obtain ⟨scheme, rest⟩ := u
    cases scheme with
    | ws => exact .inl ⟨.inl rfl, h⟩
    | wss => exact .inl ⟨.inr rfl, h⟩
    | tlsTcp =>
        obtain ⟨-, h⟩ := Option.ite_none_right_eq_some.mp h
        cases h
        exact .inr ⟨_, rfl, .inr ⟨_, _, _, rfl, rfl, namesHost_hostOf _, rfl⟩⟩
    | quic =>
        obtain ⟨-, h⟩ := Option.ite_none_right_eq_some.mp h
        cases h
        exact .inr ⟨_, rfl, .inr ⟨_, _, _, rfl, rfl, namesHost_hostOf _, rfl⟩⟩
    | udp =>
        obtain ⟨a, ha, rfl⟩ := Option.map_eq_some_iff.mp h
        exact .inr ⟨a, ha, .inl ⟨rfl, rfl⟩⟩
    | _ =>
        obtain ⟨a, ha, rfl⟩ := Option.map_eq_some_iff.mp h
        exact .inr ⟨a, ha, .inr ⟨_, _, _, rfl, rfl, namesHost_none a, rfl⟩⟩
  next => cases h

/-- What a WebSocket client is asked for is the URL itself. -/
theorem client_eq_some {u : Url} {d : Dialing} (h : u.client c = some d) :
    ∃ hp, c.wsConnect u.text = .ok hp ∧ d = .ws u.text (.hostPort hp) := by
  obtain ⟨hp, hhp, rfl⟩ := Option.map_eq_some_iff.mp h
  exact ⟨hp, ok_iff_toOption.mpr hhp, rfl⟩

theorem call_ws {u : Url} {url : List Char} {a : OsAddr} (h : u.call c b = some (.ws url a)) :
    url = u.text := by
  obtain ⟨-, ⟨-, h⟩ | ⟨a', -, ⟨-, h⟩ | ⟨l, s, host, -, -, -, h⟩⟩⟩ := call_eq_some h
  · obtain ⟨hp, -, heq⟩ := client_eq_some h
    cases heq
    rfl
  · cases h
  · cases h

theorem plainHostPort_not_slash {hp : List Char} (h : PlainHostPort hp) : '/' ∉ hp := by
  obtain ⟨host, port, -, rfl, -, hhost⟩ := h
  intro hmem
  rcases List.mem_append.mp hmem with hmem | hmem
  · exact absurd (List.all_eq_true.mp hhost _ hmem) (by decide)
  · rcases List.mem_cons.mp hmem with h | h
    · exact absurd h (by decide)
    · exact (reads_toDigits port).not_mem rfl (by decide) h

/-- What is in front of the path of a plain URL is what a listener takes. -/
theorem plainWs_addr {u : Url} {hp : List Char} (h : PlainWs u hp) :
    u.addr = some (.hostPort hp) := by
  obtain ⟨hs, hhp, ⟨path, hrest, hpath⟩, -⟩ := h
  have hcut : beforeSlash u.rest = hp := by
    have hno := plainHostPort_not_slash hhp
    have hall : ∀ x ∈ hp, decide (x ≠ '/') = true := by
      intro x hx
      exact decide_eq_true fun heq => hno (heq ▸ hx)
    rw [hrest, beforeSlash, List.takeWhile_append_of_pos hall]
    rcases hpath with rfl | ⟨p, rfl, -⟩
    · exact List.append_nil _
    · exact List.append_nil _
  obtain ⟨scheme, rest⟩ := u
  rcases hs with ⟨⟨⟩⟩ | ⟨⟨⟩⟩ <;> exact congrArg (some ∘ OsAddr.hostPort) hcut

theorem place_meets (hc : ConnectsPlain c b) {u : Url} {l : Listening} {d : Dialing}
    (hl : u.place b = some l) (hd : u.call c b = some d)
    (hplain : u.scheme = .ws ∨ u.scheme = .wss → ∃ hp, PlainWs u hp) : Meets l d := by
  obtain ⟨hknown, a, ha, rfl⟩ := place_eq_some hl
  obtain ⟨-, ⟨hs, hd⟩ | ⟨a', ha', hd⟩⟩ := call_eq_some hd
  · -- the WebSocket client connects to what was written
    obtain ⟨hp, hhp⟩ := hplain hs
    obtain ⟨hp', hconn, rfl⟩ := client_eq_some hd
    cases hconn.symm.trans (hc u hp hknown hhp)
    cases ha.symm.trans (plainWs_addr hhp)
    obtain ⟨scheme, rest⟩ := u
    rcases hs with ⟨⟨⟩⟩ | ⟨⟨⟩⟩
    · exact .ws rest _
    · exact .wss rest _
  · cases ha.symm.trans ha'
    obtain ⟨hnone, rfl⟩ | ⟨l, s, host, hlist, hkind, hhost, rfl⟩ := hd
    · rw [hnone]
      exact .udp a
    · rw [hlist]
      exact .stream hkind hhost

/-- The frame format does not depend on what a client makes of the URL. -/
theorem place_format {u : Url} {l : Listening} {d : Dialing} (hl : u.place b = some l)
    (hd : u.call c b = some d) : l.format = d.format := by
  obtain ⟨-, a, -, rfl⟩ := place_eq_some hl
  obtain ⟨-, ⟨hs, hd⟩ | ⟨a', -, hd⟩⟩ := call_eq_some hd
  · obtain ⟨hp, -, rfl⟩ := client_eq_some hd
    rcases hs with hs | hs <;> rw [hs] <;> rfl
  · obtain ⟨hnone, rfl⟩ | ⟨l, s, host, hlist, hkind, -, rfl⟩ := hd
    · rw [hnone]
      rfl
    · rw [hlist]
      exact congrArg (Option.map AnyStream.frameFormat) hkind

/-- The functions for a scheme that `listen` is not for. -/
theorem listenFn_of_not_listen {f : ListenFn} {s : Scheme} (hf : listenable f s = true)
    (hno : listenable .listen s = false) :
    s = .wss ∧ f = .listenTls ∨ s = .tlsTcp ∧ f = .listenTlsTcp ∨ s = .quic ∧
      f = .listenQuic := by
  cases s <;> cases hno <;> cases f <;> simp [listenable] at hf ⊢

/-- `listen` says which function takes the URL instead. -/
theorem listen_tells {u : Url} {f : ListenFn} (hf : listenable f u.scheme = true)
    (hno : listenable .listen u.scheme = false) :
    Socket.listen b u.text = .error (.protocolViolation (requires u.scheme f)) := by
  have hs : Scheme.udp ≠ u.scheme := fun hs => by rw [← hs] at hno; cases hno
  rw [listen_eq_bindListener (strip_text_of_ne hs)]
  obtain ⟨scheme, rest⟩ := u
  simp only at hf hno
  rcases listenFn_of_not_listen hf hno with ⟨rfl, rfl⟩ | ⟨rfl, rfl⟩ | ⟨rfl, rfl⟩ <;>
    simp only [Url.text, Scheme.text] <;> rfl

theorem no_refusal_iff {u : Url} :
    (∀ v e, u.text = Url.text v → ¬ UrlRefused c v e) ↔ ∀ e, ¬ UrlRefused c u e := by
  constructor
  · exact fun h e => h u e rfl
  · intro h v e heq
    cases text_injective heq
    exact h e

/-- However a URL is taken, it is one place: the functions that listen agree on it,
the functions that dial agree on it, and the two sides meet. -/
theorem url_one_place (c : Crates) (b : Build) (hc : ConnectsPlain c b) (addr : List Char) :
    OnePlace c b addr where
  listening := by
    intro f f' l l' h h'
    obtain ⟨u, rfl⟩ := listens_url h
    rw [listens_text_iff] at h h'
    exact Option.some_inj.mp (h.2.2.symm.trans h'.2.2)
  dialing := by
    intro g g' d d' h h'
    obtain ⟨u, rfl⟩ := dials_url h
    rw [dials_text_iff] at h h'
    exact Option.some_inj.mp (h.2.2.symm.trans h'.2.2)
  meets := by
    intro f g l d hl hd hplain
    obtain ⟨u, rfl⟩ := listens_url hl
    exact place_meets hc ((listens_text_iff u).mp hl).2.2 ((dials_text_iff u).mp hd).2.2
      (hplain u rfl)
  handed := by
    intro g url a hd
    obtain ⟨u, rfl⟩ := dials_url hd
    exact call_ws ((dials_text_iff u).mp hd).2.2
  framing := by
    intro f g l d hl hd
    obtain ⟨u, rfl⟩ := listens_url hl
    exact place_format ((listens_text_iff u).mp hl).2.2 ((dials_text_iff u).mp hd).2.2
  reached := by
    constructor
    · rintro ⟨d, hd⟩
      obtain ⟨u, rfl⟩ := dials_url hd
      obtain ⟨⟨l, hl⟩, hno⟩ := call_iff_place.mp ⟨d, ((dials_text_iff u).mp hd).2.2⟩
      exact ⟨⟨_, l, listens_of_place hl⟩, no_refusal_iff.mpr hno⟩
    · rintro ⟨⟨f, l, hl⟩, hno⟩
      obtain ⟨u, rfl⟩ := listens_url hl
      have hplace := ((listens_text_iff u).mp hl).2.2
      obtain ⟨d, hd⟩ := call_iff_place.mpr ⟨⟨l, hplace⟩, no_refusal_iff.mp hno⟩
      exact ⟨d, (dials_text_iff u).mpr ⟨rfl, rfl, hd⟩⟩
  refused := by
    intro f l e hl he
    obtain ⟨u, rfl⟩ := listens_url hl
    exact ⟨u, rfl, dial_refuses ((listens_text_iff u).mp hl).2.2 he⟩
  redialed := by
    constructor
    · rintro ⟨d, hd⟩
      obtain ⟨u, rfl⟩ := dials_url hd
      obtain ⟨-, hne, hcall⟩ := (dials_text_iff u).mp hd
      obtain ⟨⟨l, hl⟩, hno⟩ := call_iff_place.mp ⟨d, hcall⟩
      obtain ⟨l', a, rfl⟩ := (place_listener_iff hl).mpr (of_decide_eq_true hne)
      exact ⟨⟨_, l', a, listens_of_place hl⟩, no_refusal_iff.mpr hno⟩
    · rintro ⟨⟨f, l, a, hl⟩, hno⟩
      obtain ⟨u, rfl⟩ := listens_url hl
      have hplace := ((listens_text_iff u).mp hl).2.2
      have hne := (place_listener_iff hplace).mp ⟨l, a, rfl⟩
      obtain ⟨d, hd⟩ := call_iff_place.mpr ⟨⟨_, hplace⟩, no_refusal_iff.mp hno⟩
      exact ⟨d, (dials_text_iff u).mpr ⟨rfl, decide_eq_true hne, hd⟩⟩
  told := by
    intro f l e hl he
    obtain ⟨u, rfl⟩ := listens_url hl
    obtain ⟨-, hf, hplace⟩ := (listens_text_iff u).mp hl
    -- `listen` is not for the scheme, or it would get to the place as well
    have hno : listenable .listen u.scheme = false := by
      rw [Bool.eq_false_iff]
      intro hyes
      have hok := ((listens_text_iff u).mpr ⟨rfl, hyes, hplace⟩ : Listens b u.text .listen l).2
      rw [hok] at he
      cases he
    rw [ListenFn.run, listen_tells hf hno] at he
    cases he
    exact ⟨u, rfl, rfl⟩

end

/-! With every feature: a host in brackets can be listened on with TLS, but it is no
name a certificate could have; a plain WebSocket URL leads to the address in it. -/

def everyFeature : Build := ⟨true, true, true, true, true, true, true, true, fun _ => rfl⟩

/-- Names are made of letters, digits, dots and hyphens; the client takes what is in
front of the path. -/
def plainCrates : Crates where
  serverName host := host.all hostChar
  quicConnect _ host :=
    if host.all hostChar then none
    else some ("invalid server name: " ++ String.ofList host)
  wsConnect url :=
    match strip (Scheme.text .ws) url, strip (Scheme.text .wss) url with
    | some rest, _ => .ok (beforeSlash rest)
    | _, some rest => .ok (beforeSlash rest)
    | none, none => .error "URL scheme not supported"

theorem connectsPlain_plainCrates (b : Build) : ConnectsPlain plainCrates b := by
  intro u hp _ hplain
  have haddr := plainWs_addr hplain
  obtain ⟨scheme, rest⟩ := u
  simp only [plainCrates, strip_text]
  rcases hplain.1 with ⟨⟨⟩⟩ | ⟨⟨⟩⟩
  · cases haddr
    rfl
  · cases haddr
    rfl

def bracketed : List Char := "tls+tcp://[::1]:5555".toList

def busUrl : List Char := "ws://127.0.0.1:5555/bus".toList

theorem busUrl_plain (u : Url) (h : busUrl = u.text) (_ : u.scheme = .ws ∨ u.scheme = .wss) :
    ∃ hp, PlainWs u hp := by
  cases text_injective (u := ⟨.ws, "127.0.0.1:5555/bus".toList⟩) h
  refine ⟨"127.0.0.1:5555".toList, .inl rfl, ⟨"127.0.0.1".toList, 5555, by omega, ?_, ?_, ?_⟩,
    ⟨"/bus".toList, by decide, .inr ⟨"bus".toList, by decide, by decide⟩⟩, by decide⟩
  · decide
  · decide
  · decide

theorem url_one_place_bracketed :
    OnePlace plainCrates everyFeature bracketed ∧
      Listens everyFeature bracketed .listenTlsTcp
        (.listener .tlsTcp (.hostPort "[::1]:5555".toList)) ∧
      DialFn.run plainCrates everyFeature .dial bracketed =
        .error (.io ("invalid TLS server name: " ++ String.ofList "[::1]".toList)) ∧
      Meets (.listener .ws (.hostPort "127.0.0.1:5555".toList))
        (.ws busUrl (.hostPort "127.0.0.1:5555".toList)) :=
  ⟨url_one_place _ _ (connectsPlain_plainCrates _) _, ⟨rfl, by decide⟩, by decide,
    (url_one_place plainCrates everyFeature (connectsPlain_plainCrates _) busUrl).meets
      (f := .listen) (g := .dial) ⟨rfl, by decide⟩ ⟨rfl, by decide⟩ busUrl_plain⟩

end NngCore.Proofs
