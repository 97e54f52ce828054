import NngCore.Proofs.ReqRepIds
import NngCore.Spec.Udp

/-!
# Replies are not crossed

Every client counts from one, so the numbers alone say nothing about who asked.
What keeps replies apart is where they travel: the server sends a reply to the
address its responder's request came from, because nothing is received between
the two, and a client hears the server only. So a datagram on its way to a
client answers a request of that client, and there the number decides, for
less than `2 ^ 31` requests exactly.

The invariant says of every datagram where it comes from: one to the server is
a copy of a request of its sender, one to a client carries the first four
bytes of such a copy and a reply the server made for it. Application messages
must leave the header alone for either; a header of their own goes in front of
the number and is read in its place. And every datagram must fit the buffer of a
receive, or it comes in cut short; over IPv6 a socket sends some that do not.
-/

namespace NngCore.Proofs

open NngCore.Lib NngCore.Ref NngCore.Spec

/-! ## The transport -/

theorem recvDatagram_eq (datagram : List UInt8) :
    UdpTransport.recvDatagram datagram =
      Message.fromParts [] (datagram.take maxUdpPayload) := by
  have hroom : (List.replicate maxUdpPayload (0 : UInt8)).length = maxUdpPayload :=
    List.length_replicate
  have hkept : 0 + (datagram.take maxUdpPayload).length ≤
      (List.replicate maxUdpPayload (0 : UInt8)).length := by
    rw [hroom, Nat.zero_add]
    exact List.length_take_le _ _
  have hread := take_overwrite hkept
  rw [Nat.zero_add, List.take_zero, List.nil_append] at hread
  simp only [UdpTransport.recvDatagram, recvFrom, hroom, hread]
  rfl

theorem udp_recv_eq (t : UdpTransport) (d : Datagram) :
    t.recv d =
      (Message.fromParts [] (d.payload.take maxUdpPayload),
        { t with peer := some d.src }) := by
  rw [UdpTransport.recv, recvDatagram_eq]

theorem recvDatagram_whole {datagram : List UInt8} (h : datagram.length ≤ maxUdpPayload) :
    UdpTransport.recvDatagram datagram = Message.fromParts [] datagram := by
  rw [recvDatagram_eq, List.take_of_length_le h]

theorem udp_sendOn_ok {t : UdpTransport} {family : IpFamily} {msg : Message}
    {r : Except String Unit} {payload : List UInt8}
    (h : t.sendOn family msg r = some (.ok (), payload)) :
    payload = msg.payload ∧ payload.length ≤ family.maxPayload := by
  simp only [UdpTransport.sendOn] at h
  split at h
  · cases h
  · cases h
  · split at h
    · next hle =>
        cases h
        exact ⟨rfl, hle⟩
    · cases h

theorem udp_send_spec {t : UdpTransport} {self : Addr} {family : IpFamily} {msg : Message}
    {r res : Except String Unit} {ds : List Datagram}
    (h : t.send self family msg r = some (res, ds)) :
    ∀ d ∈ ds, d.src = self ∧ t.dest = .ok d.dst ∧ d.payload = msg.payload ∧
      d.payload.length ≤ family.maxPayload := by
  intro d hd
  unfold UdpTransport.send at h
  split at h
  · cases h
  · next dst payload hdest hsend =>
      cases h
      cases List.mem_singleton.mp hd
      exact ⟨rfl, hdest, udp_sendOn_ok hsend⟩
  · cases h
    cases hd

/-! ## A client -/

/-- A client's requests are numbered, and its live call is one of them. -/
structure ClientOk (cl : UdpClient) : Prop where
  remote : cl.transport.remote = some .server
  next : cl.state.nextId.toNat = idAfter cl.issued.length
  stamped : ∀ k out, cl.issued[k]? = some out → ∃ (id : UInt32) (body : List UInt8),
    id.toNat = idAfter k ∧ out.payload = u32ToBeBytes (id ||| 0x80000000) ++ body
  live : ∀ call, cl.live = some call →
    cl.issued[call.number]? = some call.outgoing ∧ call.sentId.toNat = idAfter call.number

theorem clientOk_dial : ClientOk .dial where
  remote := rfl
  next := rfl
  stamped k out h := by cases h
  live call h := by cases h

/-- A call that goes on, or ends, leaves a client in order. -/
theorem ClientOk.keep {cl cl' : UdpClient} (h : ClientOk cl)
    (hremote : cl'.transport.remote = cl.transport.remote) (hstate : cl'.state = cl.state)
    (hissued : cl'.issued = cl.issued)
    (hlive : ∀ call', cl'.live = some call' → ∃ call, cl.live = some call ∧
      call'.number = call.number ∧ call'.outgoing = call.outgoing ∧
      call'.sentId = call.sentId) : ClientOk cl' where
  remote := by rw [hremote, h.remote]
  next := by rw [hstate, hissued, h.next]
  stamped := by
    rw [hissued]
    exact h.stamped
  live call' hcall' := by
    obtain ⟨call, hcall, hn, ho, hid⟩ := hlive call' hcall'
    rw [hissued, hn, ho, hid]
    exact h.live call hcall

theorem ClientOk.call {cl cl' : UdpClient} {msg : Message} (h : ClientOk cl)
    (hplain : msg.header = []) (hcall : cl.call msg = some cl') :
    ClientOk cl' ∧ (∃ out, cl'.issued = cl.issued ++ [out]) ∧ cl'.returned = cl.returned := by
  simp only [UdpClient.call] at hcall
  split at hcall
  · cases hcall
  · rw [prepareOutgoing_message] at hcall
    cases hcall
    refine ⟨⟨h.remote, ?_, ?_, ?_⟩, ⟨_, rfl⟩, rfl⟩
    · rw [List.length_append, List.length_singleton]
      exact nextId_step h.next
    · intro k out hk
      rcases Nat.lt_trichotomy k cl.issued.length with hlt | rfl | hgt
      · rw [List.getElem?_append_left hlt] at hk
        exact h.stamped k out hk
      · rw [List.getElem?_append_right (Nat.le_refl _), Nat.sub_self] at hk
        cases hk
        refine ⟨cl.state.nextId, msg.body, h.next, ?_⟩
        rw [Message.payload, Message.headerPushBack, hplain, List.nil_append]
      · rw [List.getElem?_eq_none
          (by simp only [List.length_append, List.length_singleton]; omega)] at hk
        cases hk
    · intro call hcall
      cases hcall
      refine ⟨?_, h.next⟩
      rw [List.getElem?_append_right (Nat.le_refl _), Nat.sub_self]
      rfl

/-! ## The system -/

def Few (s : UdpSystem) : Prop := ∀ c, (s.clients c).issued.length < 2 ^ 31

/-- `d` is a copy of a request of the client it comes from. -/
def IsRequest (clients : Nat → UdpClient) (d : Datagram) : Prop :=
  d.dst = .server ∧ ∃ (c k : Nat) (out : Message), d.src = .client c ∧
    (clients c).issued[k]? = some out ∧ d.payload = out.payload

/-- `d` carries a reply the server made for a request of the client it goes to. -/
def IsReply (log : List (Datagram × Message)) (d : Datagram) : Prop :=
  ∃ c request made, d.dst = .client c ∧ (request, made) ∈ log ∧
    request.src = .client c ∧ d.payload = request.payload.take 4 ++ made.body

/-- A request that has reached the server. -/
def Heard (s : UdpSystem) (d : Datagram) : Prop := d ∈ s.net ∧ IsRequest s.clients d

structure Uncrossed (s : UdpSystem) : Prop where
  clients : ∀ c, ClientOk (s.clients c)
  net : ∀ d ∈ s.net, IsRequest s.clients d ∨ IsReply s.server.log d
  log : ∀ p ∈ s.server.log, Heard s p.1
  remote : s.server.transport.remote = none
  responder : ∀ routing d, s.server.responder = some (routing, d) →
    Heard s d ∧ s.server.transport.peer = some d.src ∧
      routing.bytes.toList = d.payload.take 4
  returned : Few s → FitsBuffer s → NotCrossed s

theorem uncrossed_start : Uncrossed .start where
  clients _ := clientOk_dial
  net := nofun
  log := nofun
  remote := rfl
  responder := nofun
  returned := fun _ _ _ _ _ h => by cases h

/-- The clients of one state have issued the requests of the other, and more. -/
def Extends (clients clients' : Nat → UdpClient) : Prop :=
  ∀ (c k : Nat) (out : Message), (clients c).issued[k]? = some out →
    (clients' c).issued[k]? = some out

theorem IsRequest.mono {clients clients' : Nat → UdpClient} {d : Datagram}
    (h : IsRequest clients d) (hext : Extends clients clients') : IsRequest clients' d := by
  obtain ⟨hdst, c, k, out, hsrc, hout, hpay⟩ := h
  exact ⟨hdst, c, k, out, hsrc, hext c k out hout, hpay⟩

theorem IsReply.mono {log log' : List (Datagram × Message)} {d : Datagram}
    (h : IsReply log d) (hsub : ∀ p ∈ log, p ∈ log') : IsReply log' d := by
  obtain ⟨c, request, made, hdst, hmem, hrest⟩ := h
  exact ⟨c, request, made, hdst, hsub _ hmem, hrest⟩

theorem repliedTo_mono {s s' : UdpSystem} {c k : Nat} {reply : Message}
    (h : RepliedTo s c k reply) (hext : Extends s.clients s'.clients)
    (hlog : ∀ p ∈ s.server.log, p ∈ s'.server.log) : RepliedTo s' c k reply := by
  obtain ⟨outgoing, request, made, hout, hmem, hrest⟩ := h
  exact ⟨outgoing, request, made, hext c k outgoing hout, hlog _ hmem, hrest⟩

theorem few_of_extends {s s' : UdpSystem} (hext : Extends s.clients s'.clients)
    (h : Few s') : Few s := by
  intro c
  refine Nat.lt_of_le_of_lt ?_ (h c)
  by_contra hlt
  have hlast : (s'.clients c).issued.length < (s.clients c).issued.length := by omega
  have hget := hext c _ _ (List.getElem?_eq_getElem hlast)
  rw [List.getElem?_eq_none (Nat.le_refl _)] at hget
  cases hget

theorem Heard.mono {s s' : UdpSystem} {d : Datagram} (h : Heard s d)
    (hext : Extends s.clients s'.clients) (hnet : s.net ⊆ s'.net) : Heard s' d :=
  ⟨hnet h.1, h.2.mono hext⟩

theorem fitsBuffer_of_subset {s s' : UdpSystem} (hnet : s.net ⊆ s'.net) (h : FitsBuffer s') :
    FitsBuffer s := fun d hd => h d (hnet hd)

/-- A step of client `c`, which may put requests of its own on the network and
may return replies made for it. -/
theorem Uncrossed.client {s : UdpSystem} (h : Uncrossed s) (c : Nat) {cl : UdpClient}
    {ds : List Datagram} (hcl : ClientOk cl)
    (hissued : ∀ (k : Nat) (out : Message), (s.clients c).issued[k]? = some out →
      cl.issued[k]? = some out)
    (hds : ∀ d ∈ ds, d.dst = .server ∧ d.src = .client c ∧
      ∃ (k : Nat) (out : Message), cl.issued[k]? = some out ∧ d.payload = out.payload)
    (hret : Few s → FitsBuffer s → ∀ k reply, (k, .ok reply) ∈ cl.returned →
      (k, .ok reply) ∈ (s.clients c).returned ∨ RepliedTo s c k reply) :
    Uncrossed { s.setClient c cl with net := s.net ++ ds } := by
  have hnet : s.net ⊆ s.net ++ ds := List.subset_append_left _ _
  have hsame : (s.setClient c cl).clients c = cl := if_pos rfl
  have hother : ∀ n, n ≠ c → (s.setClient c cl).clients n = s.clients n :=
    fun n hn => if_neg hn
  have hext : Extends s.clients (s.setClient c cl).clients := by
    intro n k out hk
    by_cases hn : n = c
    · subst hn
      rw [hsame]
      exact hissued k out hk
    · rw [hother n hn]
      exact hk
  refine ⟨?_, ?_, ?_, h.remote, ?_, ?_⟩
  · intro n
    show ClientOk ((s.setClient c cl).clients n)
    by_cases hn : n = c
    · rw [hn, hsame]
      exact hcl
    · rw [hother n hn]
      exact h.clients n
  · intro d hd
    rcases List.mem_append.mp hd with hd | hd
    · rcases h.net d hd with hreq | hrep
      · exact Or.inl (hreq.mono hext)
      · exact Or.inr hrep
    · obtain ⟨hdst, hsrc, k, out, hout, hpay⟩ := hds d hd
      refine Or.inl ⟨hdst, c, k, out, hsrc, ?_, hpay⟩
      show ((s.setClient c cl).clients c).issued[k]? = some out
      rw [hsame]
      exact hout
  · intro p hp
    exact (h.log p hp).mono hext hnet
  · intro routing d hresp
    obtain ⟨hheard, hpeer, hbytes⟩ := h.responder routing d hresp
    exact ⟨hheard.mono hext hnet, hpeer, hbytes⟩
  · intro hfew hfits n k reply hmem
    have hfew' : Few s := few_of_extends hext hfew
    have hfits' : FitsBuffer s := fitsBuffer_of_subset hnet hfits
    refine repliedTo_mono (s := s) ?_ hext (fun p hp => hp)
    have hmem' : (k, Except.ok reply) ∈ ((s.setClient c cl).clients n).returned := hmem
    by_cases hn : n = c
    · subst hn
      rw [hsame] at hmem'
      rcases hret hfew' hfits' k reply hmem' with hold | hnew
      · exact h.returned hfew' hfits' n k reply hold
      · exact hnew
    · rw [hother n hn] at hmem'
      exact h.returned hfew' hfits' n k reply hmem'

/-- A step of the server, which may put replies of its own on the network. -/
theorem Uncrossed.serve {s : UdpSystem} (h : Uncrossed s) {sv : UdpServer}
    {ds : List Datagram} (hremote : sv.transport.remote = none)
    (hlog : ∀ p ∈ s.server.log, p ∈ sv.log) (hnew : ∀ p ∈ sv.log, Heard s p.1)
    (hresp : ∀ routing d, sv.responder = some (routing, d) → Heard s d ∧
      sv.transport.peer = some d.src ∧ routing.bytes.toList = d.payload.take 4)
    (hds : ∀ d ∈ ds, IsReply sv.log d) :
    Uncrossed { s with server := sv, net := s.net ++ ds } := by
  have hnet : s.net ⊆ s.net ++ ds := List.subset_append_left _ _
  have hext : Extends s.clients s.clients := fun _ _ _ hk => hk
  refine ⟨h.clients, ?_, fun p hp => (hnew p hp).mono hext hnet, hremote, ?_, ?_⟩
  · intro d hd
    rcases List.mem_append.mp hd with hd | hd
    · rcases h.net d hd with hreq | hrep
      · exact Or.inl hreq
      · exact Or.inr (hrep.mono hlog)
    · exact Or.inr (hds d hd)
  · intro routing d hd
    obtain ⟨hheard, hrest⟩ := hresp routing d hd
    exact ⟨hheard.mono hext hnet, hrest⟩
  · intro hfew hfits c k reply hmem
    exact repliedTo_mono (h.returned hfew (fitsBuffer_of_subset hnet hfits) c k reply hmem)
      hext
      hlog

/-- A step of the server that replies to nobody. -/
theorem Uncrossed.serveAlone {s : UdpSystem} (h : Uncrossed s) {sv : UdpServer}
    (hremote : sv.transport.remote = none) (hlog : sv.log = s.server.log)
    (hresp : ∀ routing d, sv.responder = some (routing, d) → Heard s d ∧
      sv.transport.peer = some d.src ∧ routing.bytes.toList = d.payload.take 4) :
    Uncrossed { s with server := sv } := by
  have hnext : Uncrossed { s with server := sv, net := s.net ++ [] } := by
    refine h.serve hremote ?_ ?_ hresp nofun
    · rw [hlog]
      exact fun p hp => hp
    · rw [hlog]
      exact h.log
  rw [List.append_nil] at hnext
  exact hnext

/-! ## The client's steps -/

theorem mem_finish_error {cl : UdpClient} {call : UdpCall} {e : NngError} {k : Nat}
    {reply : Message} (h : (k, .ok reply) ∈ (cl.finish call (.error e)).returned) :
    (k, .ok reply) ∈ cl.returned := by
  rcases List.mem_append.mp h with h | h
  · exact h
  · cases List.mem_singleton.mp h

theorem ClientOk.finish {cl : UdpClient} (h : ClientOk cl) (call : UdpCall)
    (r : Except NngError Message) : ClientOk (cl.finish call r) :=
  h.keep rfl rfl rfl nofun

theorem ClientOk.sent {cl cl' : UdpClient} {c : Nat} {family : IpFamily}
    {r : Except String Unit} {ds : List Datagram} (h : ClientOk cl)
    (hsent : cl.sent (.client c) family r = some (cl', ds)) :
    ClientOk cl' ∧ cl'.issued = cl.issued ∧
      (∀ k reply, (k, .ok reply) ∈ cl'.returned → (k, .ok reply) ∈ cl.returned) ∧
      ∀ d ∈ ds, d.dst = .server ∧ d.src = .client c ∧
        ∃ (k : Nat) (out : Message), cl'.issued[k]? = some out ∧ d.payload = out.payload := by
  simp only [UdpClient.sent] at hsent
  split at hsent
  · cases hsent
  · next call hlive =>
      have hds : ∀ (res : Except String Unit) ds',
          cl.transport.send (.client c) family call.outgoing r = some (res, ds') →
          ∀ d ∈ ds', d.dst = .server ∧ d.src = .client c ∧
            ∃ (k : Nat) (out : Message), cl.issued[k]? = some out ∧
              d.payload = out.payload := by
        intro res ds' hsend d hd
        obtain ⟨hsrc, hdest, hpay, -⟩ := udp_send_spec hsend d hd
        simp only [UdpTransport.dest, h.remote, Except.ok.injEq] at hdest
        exact ⟨hdest.symm, hsrc, call.number, call.outgoing, (h.live call hlive).1, hpay⟩
      split at hsent
      · cases hsent
      · split at hsent
        · cases hsent
        · next hsend =>
            cases hsent
            refine ⟨h.keep rfl rfl rfl ?_, rfl, fun _ _ hmem => hmem, hds _ _ hsend⟩
            intro call' hcall'
            cases hcall'
            exact ⟨call, hlive, rfl, rfl, rfl⟩
        · next hsend =>
            cases hsent
            exact ⟨h.finish _ _, rfl, fun _ _ hmem => mem_finish_error hmem, hds _ _ hsend⟩

/-- Below `2 ^ 31` requests, the low bits of a number are the number. -/
theorem number_eq {j k n : Nat} (hn : n < 2 ^ 31) (hj : j < n) (hk : k < n)
    (h : idAfter j % 2 ^ 31 = idAfter k) : j = k := by
  simp only [idAfter] at h
  omega

/-- The reply a waiting client accepts was made for the request it waits for. -/
theorem Uncrossed.accepted {s : UdpSystem} (h : Uncrossed s) (hfew : Few s)
    (hfits : FitsBuffer s) {c : Nat} {call : UdpCall} {d : Datagram} {reply : Message}
    (hd : d ∈ s.net) (hdst : d.dst = .client c) (hlive : (s.clients c).live = some call)
    (hok : (s.clients c).state.processIncoming
      (Message.fromParts [] (d.payload.take maxUdpPayload)) call.sentId =
        some (.ok (), reply)) : RepliedTo s c call.number reply := by
  rcases h.net d hd with ⟨hserver, _⟩ | ⟨c', request, made, hdst', hmem, hsrc, hpay⟩
  · rw [hdst] at hserver
    cases hserver
  · rw [hdst] at hdst'
    cases hdst'
    obtain ⟨hheard, _, c', j, out, hsrc', hout, hreq⟩ := h.log _ hmem
    have hc : c = c' := by
      have haddr := hsrc.symm.trans hsrc'
      cases haddr
      rfl
    subst hc
    obtain ⟨id, body, hid, hstamp⟩ := (h.clients c).stamped j out hout
    obtain ⟨hcall, hsent⟩ := (h.clients c).live call hlive
    have hreq' : request.payload = u32ToBeBytes (id ||| 0x80000000) ++ body :=
      hreq.trans hstamp
    have htake : request.payload.take 4 = u32ToBeBytes (id ||| 0x80000000) := by
      rw [hreq', ← length_u32ToBeBytes (id ||| 0x80000000), List.take_left]
    have hraw : Message.fromParts [] (d.payload.take maxUdpPayload) =
        Message.fromParts [] (u32ToBeBytes (id ||| 0x80000000) ++ made.body) := by
      rw [List.take_of_length_le (hfits d hd), hpay, htake]
    rw [hraw, req_processIncoming_stamped] at hok
    split at hok
    · cases hok
    · next heq =>
        cases hok
        have hbits : idAfter j % 2 ^ 31 = idAfter call.number := by
          rw [← hid, ← hsent, ← mask_mark, Decidable.not_not.mp heq]
        have hj := (List.getElem?_eq_some_iff.mp hout).1
        have hk := (List.getElem?_eq_some_iff.mp hcall).1
        have hsame := number_eq (hfew c) hj hk hbits
        subst hsame
        refine ⟨out, request, made, hout, hmem, hsrc, hreq, ?_, rfl⟩
        rw [recvDatagram_whole (hfits request hheard), hreq]
        rfl

theorem Uncrossed.deliver {s : UdpSystem} (h : Uncrossed s) {c : Nat} {d : Datagram}
    {cl' : UdpClient} (hd : d ∈ s.net) (hdst : d.dst = .client c)
    (hdeliver : (s.clients c).deliver d = some cl') :
    ClientOk cl' ∧ cl'.issued = (s.clients c).issued ∧
      (Few s → FitsBuffer s → ∀ k reply, (k, .ok reply) ∈ cl'.returned →
        (k, .ok reply) ∈ (s.clients c).returned ∨ RepliedTo s c k reply) := by
  rw [UdpClient.deliver, udp_recv_eq] at hdeliver
  dsimp only at hdeliver
  split at hdeliver
  · cases hdeliver
  · next call hlive =>
      have hkeep : ClientOk { s.clients c with
          transport := { (s.clients c).transport with peer := some d.src } } :=
        (h.clients c).keep rfl rfl rfl fun call' hcall' => ⟨call', hcall', rfl, rfl, rfl⟩
      split at hdeliver
      · split at hdeliver
        · cases hdeliver
        · next reply hok =>
            cases hdeliver
            refine ⟨hkeep.finish _ _, rfl, fun hfew hfits k reply' hmem => ?_⟩
            rcases List.mem_append.mp hmem with hmem | hmem
            · exact Or.inl hmem
            · cases List.mem_singleton.mp hmem
              exact Or.inr (h.accepted hfew hfits hd hdst hlive hok)
        · cases hdeliver
          exact ⟨hkeep, rfl, fun _ _ _ _ hmem => Or.inl hmem⟩
        · cases hdeliver
          exact ⟨hkeep.finish _ _, rfl, fun _ _ _ _ hmem => Or.inl (mem_finish_error hmem)⟩
      · cases hdeliver

/-! ## The server's steps -/

theorem Uncrossed.receive {s : UdpSystem} (h : Uncrossed s) {d : Datagram} {sv : UdpServer}
    (hd : d ∈ s.net) (hdst : d.dst = .server) (hreceive : s.server.receive d = some sv) :
    Uncrossed { s with server := sv } := by
  have hreq : IsRequest s.clients d := by
    rcases h.net d hd with hreq | ⟨c, _, _, hclient, _⟩
    · exact hreq
    · rw [hdst] at hclient
      cases hclient
  rw [UdpServer.receive, udp_recv_eq] at hreceive
  simp only [rep_processIncoming_message] at hreceive
  split at hreceive
  · cases hreceive
  · next hnone =>
      split at hreceive
      · cases hreceive
      · next routing msg hproc =>
          cases hreceive
          refine h.serveAlone h.remote rfl ?_
          intro routing' d' hresp
          cases hresp
          refine ⟨⟨hd, hreq⟩, rfl, ?_⟩
          split at hproc
          · cases hproc
          · cases hproc
            rw [Vector.toList_mk]
            exact List.take_take.trans (congrArg (List.take · d.payload) (by decide))
      · cases hreceive
        refine h.serveAlone h.remote rfl ?_
        intro routing d' hresp
        have hold : s.server.responder = some (routing, d') := hresp
        rw [hnone] at hold
        cases hold

theorem Uncrossed.reply {s : UdpSystem} (h : Uncrossed s) {msg : Message}
    {family : IpFamily} {r : Except String Unit} {sv : UdpServer} {ds : List Datagram}
    (hplain : msg.header = []) (hreply : s.server.reply family msg r = some (sv, ds)) :
    Uncrossed { s with server := sv, net := s.net ++ ds } := by
  simp only [UdpServer.reply, Rep0State.prepareReply, MessageBuf.headerPushBack] at hreply
  split at hreply
  · cases hreply
  · next routing d hresp =>
      obtain ⟨hreq, hpeer, hbytes⟩ := h.responder routing d hresp
      split at hreply
      · cases hreply
      · next res ds' hsend =>
          cases hreply
          refine h.serve h.remote (fun p hp => List.mem_append_left _ hp) ?_ ?_ ?_
          · exact forall_mem_concat h.log hreq
          · intro routing d hnone
            cases hnone
          · intro d' hd'
            obtain ⟨_, _, c, _, _, hsrc, _⟩ := hreq
            obtain ⟨_, hdest, hpay, -⟩ := udp_send_spec hsend d' hd'
            simp only [UdpTransport.dest, h.remote, hpeer, Except.ok.injEq] at hdest
            refine ⟨c, d, msg, hdest.symm.trans hsrc,
              List.mem_append_right _ (List.mem_singleton_self _), hsrc, ?_⟩
            rw [hpay, Message.payload, Message.headerPushBack, hplain, hbytes,
              List.nil_append]

/-! ## Every step, every run -/

/-- A client's step that puts nothing on the network. -/
theorem Uncrossed.alone {s s' : UdpSystem} (h : Uncrossed s) (c : Nat)
    {o : Option UdpClient} (hstep : o.map (s.setClient c) = some s')
    (hcl : ∀ cl, o = some cl → ClientOk cl ∧ (s.clients c).issued <+: cl.issued ∧
      (Few s → FitsBuffer s → ∀ k reply, (k, .ok reply) ∈ cl.returned →
        (k, .ok reply) ∈ (s.clients c).returned ∨ RepliedTo s c k reply)) :
    Uncrossed s' := by
  cases o with
  | none => cases hstep
  | some cl =>
      cases hstep
      obtain ⟨hok, hprefix, hret⟩ := hcl cl rfl
      have hstay : Uncrossed { s.setClient c cl with net := s.net ++ [] } := by
        refine h.client c hok (fun k out hk => ?_) nofun hret
        obtain ⟨t, ht⟩ := hprefix
        have hlt := (List.getElem?_eq_some_iff.mp hk).1
        rw [← ht, List.getElem?_append_left hlt]
        exact hk
      rw [List.append_nil] at hstay
      exact hstay

theorem Uncrossed.step {family : IpFamily} {s s' : UdpSystem} {a : UdpAct} (h : Uncrossed s)
    (hplain : Plain a) (hstep : s.step family a = some s') : Uncrossed s' := by
  cases a with
  | call c msg =>
      refine h.alone c hstep fun cl hcl => ?_
      obtain ⟨hok, ⟨out, hissued⟩, hret⟩ := (h.clients c).call hplain hcl
      refine ⟨hok, hissued ▸ List.prefix_append _ _, fun _ _ k reply hmem => Or.inl ?_⟩
      rw [← hret]
      exact hmem
  | sent c r =>
      simp only [UdpSystem.step] at hstep
      split at hstep
      · cases hstep
      · next cl ds hsent =>
          cases hstep
          obtain ⟨hok, hissued, hret, hds⟩ := (h.clients c).sent hsent
          exact h.client c hok (fun k out hk => by rw [hissued]; exact hk) hds
            fun _ _ k reply hmem => Or.inl (hret k reply hmem)
  | deliver c i =>
      simp only [UdpSystem.step] at hstep
      split at hstep
      · cases hstep
      · next d hnet =>
          split at hstep
          · next hdst =>
              refine h.alone c hstep fun cl hcl => ?_
              obtain ⟨hok, hissued, hret⟩ :=
                h.deliver (List.mem_of_getElem? hnet) hdst hcl
              exact ⟨hok, hissued ▸ List.prefix_rfl, hret⟩
          · cases hstep
  | failed c e =>
      refine h.alone c hstep fun cl hcl => ?_
      simp only [UdpClient.failed] at hcl
      split at hcl
      · cases hcl
      · split at hcl
        · cases hcl
          exact ⟨(h.clients c).finish _ _, List.prefix_rfl,
            fun _ _ _ _ hmem => Or.inl (mem_finish_error hmem)⟩
        · cases hcl
  | timeout c =>
      refine h.alone c hstep fun cl hcl => ?_
      simp only [UdpClient.timeout] at hcl
      split at hcl
      · cases hcl
      · next call hlive =>
          split at hcl
          · cases hcl
            refine ⟨(h.clients c).keep rfl rfl rfl fun call' hcall' => ?_, List.prefix_rfl,
              fun _ _ _ _ hmem => Or.inl hmem⟩
            cases hcall'
            exact ⟨call, hlive, rfl, rfl, rfl⟩
          · cases hcl
  | drop c =>
      refine h.alone c hstep fun cl hcl => ?_
      simp only [UdpClient.drop] at hcl
      split at hcl
      · cases hcl
      · cases hcl
        exact ⟨(h.clients c).keep rfl rfl rfl nofun, List.prefix_rfl,
          fun _ _ _ _ hmem => Or.inl hmem⟩
  | receive i =>
      simp only [UdpSystem.step] at hstep
      split at hstep
      · cases hstep
      · next d hnet =>
          split at hstep
          · next hdst =>
              obtain ⟨sv, hsv, rfl⟩ := Option.map_eq_some_iff.mp hstep
              exact h.receive (List.mem_of_getElem? hnet) hdst hsv
          · cases hstep
  | reply msg r =>
      simp only [UdpSystem.step] at hstep
      split at hstep
      · cases hstep
      · next sv ds hreply =>
          cases hstep
          exact h.reply hplain hreply
  | discard =>
      simp only [UdpSystem.step] at hstep
      split at hstep
      · cases hstep
      · cases hstep
        exact h.serveAlone h.remote rfl nofun

theorem uncrossed_run {family : IpFamily} {acts : List UdpAct} {s : UdpSystem}
    (hrun : run (UdpSystem.step family) .start acts = some s) (hplain : ∀ a ∈ acts, Plain a) :
    Uncrossed s :=
  run_invariant_of_labels uncrossed_start (fun _ _ _ ha h hstep => h.step ha hstep) hrun hplain

/-! ## What a socket sends -/

/-- No datagram is longer than a socket of the family accepts. -/
def LimitKept (family : IpFamily) (s : UdpSystem) : Prop :=
  ∀ d ∈ s.net, d.payload.length ≤ family.maxPayload

theorem sent_limit {cl cl' : UdpClient} {self : Addr} {family : IpFamily}
    {r : Except String Unit} {ds : List Datagram}
    (h : cl.sent self family r = some (cl', ds)) :
    ∀ d ∈ ds, d.payload.length ≤ family.maxPayload := by
  simp only [UdpClient.sent] at h
  split at h
  · cases h
  · split at h
    · cases h
    · split at h
      · cases h
      · next hsend =>
          cases h
          exact fun d hd => (udp_send_spec hsend d hd).2.2.2
      · next hsend =>
          cases h
          exact fun d hd => (udp_send_spec hsend d hd).2.2.2

theorem reply_limit {sv sv' : UdpServer} {family : IpFamily} {msg : Message}
    {r : Except String Unit} {ds : List Datagram}
    (h : sv.reply family msg r = some (sv', ds)) :
    ∀ d ∈ ds, d.payload.length ≤ family.maxPayload := by
  simp only [UdpServer.reply] at h
  split at h
  · cases h
  · split at h
    · cases h
    · split at h
      · cases h
      · next hsend =>
          cases h
          exact fun d hd => (udp_send_spec hsend d hd).2.2.2

theorem limitKept_step {family : IpFamily} {s s' : UdpSystem} {a : UdpAct}
    (h : LimitKept family s) (hstep : s.step family a = some s') : LimitKept family s' := by
  have hadd : ∀ {ds : List Datagram}, (∀ d ∈ ds, d.payload.length ≤ family.maxPayload) →
      ∀ d ∈ s.net ++ ds, d.payload.length ≤ family.maxPayload := by
    intro ds hds d hd
    rcases List.mem_append.mp hd with hd | hd
    · exact h d hd
    · exact hds d hd
  cases a with
  | call c msg =>
      obtain ⟨cl, -, rfl⟩ := Option.map_eq_some_iff.mp hstep
      exact h
  | sent c r =>
      simp only [UdpSystem.step] at hstep
      split at hstep
      · cases hstep
      · next hsent =>
          cases hstep
          exact hadd (sent_limit hsent)
  | deliver c i =>
      simp only [UdpSystem.step] at hstep
      split at hstep
      · cases hstep
      · split at hstep
        · obtain ⟨cl, -, rfl⟩ := Option.map_eq_some_iff.mp hstep
          exact h
        · cases hstep
  | failed c e =>
      obtain ⟨cl, -, rfl⟩ := Option.map_eq_some_iff.mp hstep
      exact h
  | timeout c =>
      obtain ⟨cl, -, rfl⟩ := Option.map_eq_some_iff.mp hstep
      exact h
  | drop c =>
      obtain ⟨cl, -, rfl⟩ := Option.map_eq_some_iff.mp hstep
      exact h
  | receive i =>
      simp only [UdpSystem.step] at hstep
      split at hstep
      · cases hstep
      · split at hstep
        · obtain ⟨sv, -, rfl⟩ := Option.map_eq_some_iff.mp hstep
          exact h
        · cases hstep
  | reply msg r =>
      simp only [UdpSystem.step] at hstep
      split at hstep
      · cases hstep
      · next hreply =>
          cases hstep
          exact hadd (reply_limit hreply)
  | discard =>
      simp only [UdpSystem.step] at hstep
      split at hstep
      · cases hstep
      · cases hstep
        exact h

/-- Over IPv4 every datagram fits the buffer of a receive. -/
theorem fitsBuffer_run {acts : List UdpAct} {s : UdpSystem}
    (hrun : run (UdpSystem.step .v4) .start acts = some s) : FitsBuffer s :=
  run_invariant (I := LimitKept .v4) (fun _ hd => absurd hd List.not_mem_nil)
    (fun _ _ _ h hstep => limitKept_step h hstep) hrun

/-- In every interleaving of steps, with any number of clients, losses, copies,
resends and abandoned calls: as long as the applications leave the headers of
their messages empty, no client issues `2 ^ 31` requests and, over IPv6, no
datagram is longer than the buffer of a receive, a reply returned for a client's
`k`-th request was made for a copy of that request. -/
theorem replies_not_crossed (family : IpFamily) (acts : List UdpAct) (s : UdpSystem)
    (hrun : run (UdpSystem.step family) .start acts = some s) (hplain : ∀ a ∈ acts, Plain a)
    (hfew : ∀ c, (s.clients c).issued.length < 2 ^ 31) (hfits : family = .v6 → FitsBuffer s) :
    NotCrossed s := by
  refine (uncrossed_run hrun hplain).returned hfew ?_
  cases family with
  | v4 => exact fitsBuffer_run hrun
  | v6 => exact hfits rfl

/-! The buffer of a receive is too long to be evaluated; the steps that fill it are
taken by what they come to. -/

theorem step_receive {family : IpFamily} {s : UdpSystem} {i : Nat} {d : Datagram}
    {routing : RoutingInfo} {msg : Message} (hd : s.net[i]? = some d) (hdst : d.dst = .server)
    (hfree : s.server.responder = none)
    (hproc : Rep0State.processIncoming (Message.fromParts [] (d.payload.take maxUdpPayload)) =
      some (.ok routing, msg)) :
    s.step family (.receive i) = some { s with server := { s.server with
      transport := { s.server.transport with peer := some d.src }
      responder := some (routing, d) } } := by
  simp only [UdpSystem.step, hd, hdst, if_true]
  rw [UdpServer.receive, udp_recv_eq]
  simp only [hfree, hproc, Option.map_some]

theorem step_reply {family : IpFamily} {s : UdpSystem} {routing : RoutingInfo} {d : Datagram}
    {dst : Addr} {msg : Message} (hresp : s.server.responder = some (routing, d))
    (hdest : s.server.transport.dest = .ok dst)
    (hfit : (msg.headerPushBack routing.bytes.toList).payload.length ≤ family.maxPayload) :
    s.step family (.reply msg (.ok ())) = some { s with
      server := { s.server with responder := none, log := s.server.log ++ [(d, msg)] }
      net := s.net ++
        [⟨.server, dst, (msg.headerPushBack routing.bytes.toList).payload⟩] } := by
  have hsend : s.server.transport.sendOn family (msg.headerPushBack routing.bytes.toList)
      (.ok ()) = some (.ok (), (msg.headerPushBack routing.bytes.toList).payload) := by
    simp only [UdpTransport.sendOn, hdest]
    exact if_pos hfit
  simp only [UdpSystem.step, UdpServer.reply, hresp, Rep0State.prepareReply,
    MessageBuf.headerPushBack, UdpTransport.send, hdest, hsend]

theorem step_deliver {family : IpFamily} {s : UdpSystem} {c i : Nat} {d : Datagram}
    {call : UdpCall} {reply : Message} (hd : s.net[i]? = some d) (hdst : d.dst = .client c)
    (hlive : (s.clients c).live = some call)
    (hwait : (call.waiting && (s.clients c).transport.hears d.src) = true)
    (hproc : (s.clients c).state.processIncoming
      (Message.fromParts [] (d.payload.take maxUdpPayload)) call.sentId =
        some (.ok (), reply)) :
    s.step family (.deliver c i) = some (s.setClient c
      (UdpClient.finish { s.clients c with
        transport := { (s.clients c).transport with peer := some d.src } }
          call (.ok reply))) := by
  simp only [UdpSystem.step, hd, hdst, if_true]
  rw [UdpClient.deliver, udp_recv_eq]
  simp only [hlive, hwait, hproc, if_true, Option.map_some]

/-- Two clients ask with the same number, and the server hears and answers the
later one first. -/
def twoClients : List UdpAct :=
  [.call 0 ⟨[], [1]⟩, .call 1 ⟨[], [2]⟩, .sent 0 (.ok ()), .sent 1 (.ok ()),
    .receive 1, .reply ⟨[], [20]⟩ (.ok ()), .receive 0, .reply ⟨[], [10]⟩ (.ok ()),
    .deliver 0 3, .deliver 1 2]

theorem replies_not_crossed_two_clients :
    ∃ s, run (UdpSystem.step .v6) .start twoClients = some s ∧
      RepliedTo s 0 0 ⟨[], [10]⟩ := by
  have hrun : ∃ s, run (UdpSystem.step .v6) .start twoClients = some s ∧
      (∀ c, (s.clients c).issued.length < 2 ^ 31) ∧ FitsBuffer s ∧
      (0, .ok ⟨[], [10]⟩) ∈ (s.clients 0).returned := by
    refine ⟨_, run_cons.mpr ⟨_, rfl, run_cons.mpr ⟨_, rfl, run_cons.mpr ⟨_, rfl,
      run_cons.mpr ⟨_, rfl, run_cons.mpr ⟨_, step_receive rfl rfl rfl rfl,
      run_cons.mpr ⟨_, rfl, run_cons.mpr ⟨_, step_receive rfl rfl rfl rfl,
      run_cons.mpr ⟨_, rfl, run_cons.mpr ⟨_, step_deliver rfl rfl rfl rfl rfl,
      run_cons.mpr ⟨_, step_deliver rfl rfl rfl rfl rfl, rfl⟩⟩⟩⟩⟩⟩⟩⟩⟩⟩, ?_, ?_,
      List.mem_cons_self⟩
    · intro c
      match c with
      | 0 => decide
      | 1 => decide
      | n + 2 => exact Nat.two_pow_pos 31
    · unfold FitsBuffer
      decide
  obtain ⟨s, hrun, hfew, hfits, hmem⟩ := hrun
  refine ⟨s, hrun, replies_not_crossed .v6 twoClients s hrun ?_ hfew (fun _ => hfits)
    0 0 _ hmem⟩
  intro a ha
  simp only [twoClients, List.mem_cons, List.not_mem_nil, or_false] at ha
  rcases ha with rfl | rfl | rfl | rfl | rfl | rfl | rfl | rfl | rfl | rfl <;>
    first | rfl | trivial

/-! A header that the application brought along is taken for the number: the reply
to the first request, which was abandoned, is returned for the second. And over
IPv6 a socket sends a reply that is longer than the buffer it is received into:
what is returned is a piece of it. -/

def headerFirst : List UdpAct :=
  [.call 0 ⟨[128, 0, 0, 2], [7]⟩, .sent 0 (.ok ()), .receive 0, .reply ⟨[], [9]⟩ (.ok ()),
    .drop 0, .call 0 ⟨[], [8]⟩, .sent 0 (.ok ()), .deliver 0 1]

def longReply (body : List UInt8) : List UdpAct :=
  [.call 0 ⟨[], []⟩, .sent 0 (.ok ()), .receive 0, .reply ⟨[], body⟩ (.ok ()), .deliver 0 1]

theorem few_of_one {s : UdpSystem} (h : ∀ c, c ≠ 0 → s.clients c = .dial)
    (hzero : (s.clients 0).issued.length < 2 ^ 31) :
    ∀ c, (s.clients c).issued.length < 2 ^ 31 := by
  intro c
  by_cases hc : c = 0
  · rw [hc]
    exact hzero
  · rw [h c hc]
    exact Nat.two_pow_pos 31

theorem crossed_by_header : ∃ s, run (UdpSystem.step .v4) .start headerFirst = some s ∧
    (∀ c, (s.clients c).issued.length < 2 ^ 31) ∧ ¬ NotCrossed s := by
  refine ⟨_, run_cons.mpr ⟨_, rfl, run_cons.mpr ⟨_, rfl,
    run_cons.mpr ⟨_, step_receive rfl rfl rfl rfl, run_cons.mpr ⟨_, rfl,
    run_cons.mpr ⟨_, rfl, run_cons.mpr ⟨_, rfl, run_cons.mpr ⟨_, rfl,
    run_cons.mpr ⟨_, step_deliver rfl rfl rfl rfl rfl, rfl⟩⟩⟩⟩⟩⟩⟩⟩, ?_, ?_⟩
  · exact few_of_one (fun c hc => by simp [UdpSystem.setClient, hc, UdpSystem.start])
      (by decide)
  · intro h
    obtain ⟨outgoing, request, made, hout, hmem, -, hpay, -⟩ :=
      h 0 1 ⟨[], [9]⟩ List.mem_cons_self
    cases hout
    cases List.mem_singleton.mp hmem
    exact absurd hpay (by decide)

theorem crossed_by_length {body : List UInt8} (hlong : 65503 < body.length)
    (hfit : body.length ≤ 65523) :
    ∃ s, run (UdpSystem.step .v6) .start (longReply body) = some s ∧
      (∀ c, (s.clients c).issued.length < 2 ^ 31) ∧ ¬ NotCrossed s := by
  have hlen : ((⟨[], body⟩ : Message).headerPushBack [128, 0, 0, 1]).payload.length ≤
      IpFamily.v6.maxPayload := by
    rw [Message.length_payload, Message.len, Message.headerPushBack, IpFamily.maxPayload]
    simp only [List.nil_append, List.length_cons, List.length_nil]
    omega
  have hcut : ((⟨[], body⟩ : Message).headerPushBack [128, 0, 0, 1]).payload.take
      maxUdpPayload = [128, 0, 0, 1] ++ body.take 65503 := rfl
  have hproc : Req0State.processIncoming ⟨2⟩
      (Message.fromParts [] ([128, 0, 0, 1] ++ body.take 65503)) 1 =
        some (.ok (), ⟨[], body.take 65503⟩) :=
    (req_processIncoming_stamped ⟨2⟩ 0x80000001 1 (body.take 65503)).trans rfl
  refine ⟨_, run_cons.mpr ⟨_, rfl, run_cons.mpr ⟨_, rfl,
    run_cons.mpr ⟨_, step_receive rfl rfl rfl rfl,
    run_cons.mpr ⟨_, step_reply rfl rfl hlen,
    run_cons.mpr ⟨_, step_deliver rfl rfl rfl rfl (hcut ▸ hproc), rfl⟩⟩⟩⟩⟩, ?_, ?_⟩
  · exact few_of_one (fun c hc => by simp [UdpSystem.setClient, hc, UdpSystem.start])
      (show 1 < 2 ^ 31 by decide)
  · intro h
    obtain ⟨outgoing, request, made, -, hmem, -, -, -, hreply⟩ :=
      h 0 0 ⟨[], body.take 65503⟩ List.mem_cons_self
    cases List.mem_singleton.mp hmem
    have hsame : body.take 65503 = body := congrArg Message.body hreply
    have hle := (List.take_eq_self_iff _).mp hsame
    omega

theorem replies_crossed :
    (¬ ∀ (acts : List UdpAct) (s : UdpSystem), run (UdpSystem.step .v4) .start acts = some s →
      (∀ c, (s.clients c).issued.length < 2 ^ 31) → NotCrossed s) ∧
    ¬ ∀ (acts : List UdpAct) (s : UdpSystem), run (UdpSystem.step .v6) .start acts = some s →
      (∀ a ∈ acts, Plain a) → (∀ c, (s.clients c).issued.length < 2 ^ 31) → NotCrossed s := by
  refine ⟨fun h => ?_, fun h => ?_⟩
  · obtain ⟨s, hrun, hfew, hcrossed⟩ := crossed_by_header
    exact hcrossed (h headerFirst s hrun hfew)
  · have hlen : (List.replicate 65504 (0 : UInt8)).length = 65504 := List.length_replicate
    obtain ⟨s, hrun, hfew, hcrossed⟩ := crossed_by_length
      (by rw [hlen]; decide : 65503 < (List.replicate 65504 (0 : UInt8)).length)
      (by rw [hlen]; decide)
    refine hcrossed (h (longReply (List.replicate 65504 0)) s hrun (fun a ha => ?_) hfew)
    simp only [longReply, List.mem_cons, List.not_mem_nil, or_false] at ha
    rcases ha with rfl | rfl | rfl | rfl | rfl <;> first | rfl | trivial

end NngCore.Proofs
