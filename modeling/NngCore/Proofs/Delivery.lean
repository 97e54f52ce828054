import NngCore.Proofs.Codec
import NngCore.Proofs.HubLoops
import NngCore.Proofs.Udp
import NngCore.Proofs.Width
import NngCore.Spec.Delivery

/-!
# Which messages are accepted and then not received

Both variants check the length of a message at one end only. A framed `send`
writes any length, and `recv` refuses one over a gibibyte; a datagram socket
refuses what is over the limit of its address family, and `recv` has a buffer
for the limit of one of them. So the two ends agree on every length but those
over the frame limit, and those between the two datagram limits.
-/

namespace NngCore.Proofs

open NngCore.Lib NngCore.Ref NngCore.Spec

/-! ## Datagrams -/

theorem recvDatagram_payload_iff (m : Message) :
    UdpTransport.recvDatagram m.payload = m.received ↔ m.len ≤ maxUdpPayload := by
  rw [recvDatagram_eq, ← Message.length_payload]
  constructor
  · intro h
    have hbody : m.payload.take maxUdpPayload = m.payload := congrArg Message.body h
    exact (List.take_eq_self_iff _).mp hbody
  · intro h
    rw [List.take_of_length_le h]
    rfl

/-- What a datagram socket accepts. -/
theorem udp_send_ok {t : UdpTransport} {family : IpFamily} {m : Message}
    {r : Except String Unit} {wire : List UInt8}
    (h : (AnyTransport.udp t family).send m r = some (.ok (), wire)) :
    wire = m.payload ∧ m.len ≤ family.maxPayload := by
  simp only [AnyTransport.send] at h
  split at h
  · cases h
  · next res payload hsent =>
      cases res with
      | error e => cases h
      | ok u =>
          cases h
          obtain ⟨rfl, hle⟩ := udp_sendOn_ok hsent
          rw [Message.length_payload] at hle
          exact ⟨rfl, hle⟩

theorem udp_send_accepts {family : IpFamily} {m : Message} (h : m.len ≤ family.maxPayload) :
    (AnyTransport.udp (.connect .server) family).send m (.ok ()) =
      some (.ok (), m.payload) := by
  rw [← Message.length_payload] at h
  have hle : (m.header ++ m.body).length ≤ family.maxPayload := h
  simp only [AnyTransport.send, UdpTransport.sendOn, UdpTransport.connect, UdpTransport.dest,
    if_pos hle]
  rfl

theorem deliversAccepted_udp (family : IpFamily) (m : Message) :
    DeliversAccepted (.udp family) m ↔
      (m.len ≤ family.maxPayload → m.len ≤ maxUdpPayload) := by
  constructor
  · intro h hle
    exact (recvDatagram_payload_iff m).mp
      (h (.udp (.connect .server) family) (.ok ()) m.payload rfl (udp_send_accepts hle))
  · intro h t r wire hkind hsend
    match t with
    | .framed stream => cases hkind
    | .udp t family' =>
        have hfam : family' = family := hkind
        subst hfam
        obtain ⟨rfl, hle⟩ := udp_send_ok hsend
        exact (recvDatagram_payload_iff m).mpr (h hle)

/-! ## Frames -/

/-- What `recv` owes for a frame that is all there. -/
theorem owed_frame (m : Message) (rest : List UInt8) :
    owed m.len (m.payload ++ rest) =
      if maxFrameBytes < m.len then .error (.frameTooLarge m.len) else .ok m.received := by
  have hge : ¬ (m.payload ++ rest).length < m.len := by
    rw [List.length_append, Message.length_payload]
    omega
  have htake : (m.payload ++ rest).take m.len = m.payload := by
    rw [← Message.length_payload, List.take_left]
  rw [owed, if_neg hge, htake]
  rfl

theorem framedReceives_iff (fmt : FrameFormat) {m : Message} (hm : Representable m) :
    FramedReceives fmt (frameBytes fmt m) m.received ↔ m.len ≤ maxFrameBytes := by
  have hlen := len_lt_of_representable hm
  have hsrc : ∀ rest,
      frameBytes fmt m ++ rest = wireHeader fmt m.len ++ (m.payload ++ rest) := by
    intro rest
    rw [frameBytes_eq, List.append_assoc]
  have howed : ∀ rest, owed (PointerWidth.w64.asUsize m.len) (m.payload ++ rest) =
      if maxFrameBytes < m.len then .error (.frameTooLarge m.len) else .ok m.received := by
    intro rest
    rw [PointerWidth.asUsize_w64 hlen, owed_frame]
  constructor
  · intro h
    by_contra hbig
    obtain ⟨acts, i, hrun, hres⟩ := first_owed_reached hlen
      (at_fresh (K := Unit) .w64 fmt () (wireHeader fmt m.len ++ (m.payload ++ [])))
    rw [howed, if_pos (Nat.lt_of_not_le hbig)] at hres
    have hfirst := (h [] acts i (by rw [hsrc]; exact hrun)).1 _ hres
    cases hfirst
  · intro hle rest acts i hrun
    rw [hsrc] at hrun
    obtain ⟨items, p, n, hat⟩ := at_run sized_vecZeroed hrun
    have hok : owed (PointerWidth.w64.asUsize m.len) (m.payload ++ rest) = .ok m.received := by
      rw [howed, if_neg (Nat.not_lt_of_le hle)]
    refine ⟨fun r hr => ?_, ?_⟩
    · rw [hat.first_owed hlen hr, hok]
    · obtain ⟨acts', i', hrun', hres⟩ := first_owed_reached hlen hat
      exact ⟨acts', i', hrun', by rw [hres, hok]⟩

theorem framed_send_ok {stream : Peer} {m : Message} {r : Except String Unit}
    {wire : List UInt8} (h : (AnyTransport.framed stream).send m r = some (.ok (), wire)) :
    wire = frameBytes stream.behaviour.fmt m := by
  obtain ⟨hres, hwire⟩ := Prod.mk.inj (Option.some.inj h)
  have hsent : (stream.send m).1 = .ok () := hres
  have hok : accepts m stream = true := by rw [accepts, hsent]; rfl
  rw [← hwire]
  show (sentTo m stream).wire.drop stream.wire.length = _
  rw [(send_spec stream m).2 hok, List.drop_left]

/-- A stream that takes a byte at a time, and never fails. -/
def patient (fmt : FrameFormat) : Peer :=
  .admitted ⟨fmt, fun _ => .ok 1, fun _ => .pending⟩ 0 0

/-- A send whose writes all take a byte comes to its end. -/
theorem sendLoop_patient {fuel : Nat} {fut : SendFut} {p : Peer}
    (hw : ∀ k, p.behaviour.writes k = .ok 1) (hoff : fut.offered ≠ [])
    (hfuel : fut.left.length ≤ fuel) : (Peer.sendLoop fuel (.pending fut) p).1 = .ok () := by
  induction fuel generalizing fut p with
  | zero =>
      have hnil := List.length_eq_zero_iff.mp (Nat.le_zero.mp hfuel)
      exact absurd hnil (left_ne_nil hoff)
  | succ fuel ih =>
      have hone : 1 ≤ fut.offered.length := List.length_pos_iff.mpr hoff
      have hwrite : (p.write fut.offered).1 = .ok 1 := by
        simp only [Peer.write, hw, Nat.min_eq_left hone]
      have hw' : ∀ k, (p.write fut.offered).2.behaviour.writes k = .ok 1 := by
        intro k
        rw [(write_wire p fut.offered).1.behaviour]
        exact hw k
      simp only [Peer.sendLoop, hwrite]
      rcases resume_cases Nat.one_pos hone with ⟨fut', hres, hoff', hleft⟩ | ⟨hres, -⟩
      · rw [hres]
        refine ih hw' hoff' ?_
        have hlen := congrArg List.length hleft
        rw [List.length_append, List.length_take] at hlen
        omega
      · rw [hres, sendLoop_ready]
        rfl

theorem framed_send_accepts (fmt : FrameFormat) (m : Message) (r : Except String Unit) :
    (AnyTransport.framed (patient fmt)).send m r = some (.ok (), frameBytes fmt m) := by
  obtain ⟨fut, hstart, hleft, hoff⟩ := sendStart_pending fmt m
  have hres : ((patient fmt).send m).1 = .ok () := by
    show (Peer.sendLoop (frameBytes fmt m).length (sendStart fmt m) _).1 = .ok ()
    rw [hstart]
    exact sendLoop_patient (fun _ => rfl) hoff (by rw [hleft])
  have hsend : (AnyTransport.framed (patient fmt)).send m r =
      some (.ok (), (sentTo m (patient fmt)).wire.drop 0) := by
    show some (((patient fmt).send m).1, _) = _
    rw [hres]
    rfl
  rw [hsend, framed_send_ok hsend]
  rfl

theorem deliversAccepted_framed (fmt : FrameFormat) {m : Message} (hm : Representable m) :
    DeliversAccepted (.framed fmt) m ↔ m.len ≤ maxFrameBytes := by
  constructor
  · intro h
    exact (framedReceives_iff fmt hm).mp
      (h (.framed (patient fmt)) (.ok ()) _ rfl (framed_send_accepts fmt m (.ok ())))
  · intro hle t r wire hkind hsend
    match t with
    | .udp t family => cases hkind
    | .framed stream =>
        have hfmt : stream.behaviour.fmt = fmt := hkind
        subst hfmt
        rw [framed_send_ok hsend]
        exact (framedReceives_iff stream.behaviour.fmt hm).mpr hle

/-! ## Every kind of transport -/

/-- The messages that are received whenever their send was accepted. -/
theorem deliversAccepted_iff (kind : TransportKind) (m : Message) (hm : Representable m) :
    DeliversAccepted kind m ↔ BothEndsTake kind m := by
  match kind with
  | .framed fmt => exact deliversAccepted_framed fmt hm
  | .udp .v4 =>
      rw [deliversAccepted_udp]
      exact ⟨fun _ => trivial, fun _ h => h⟩
  | .udp .v6 =>
      rw [deliversAccepted_udp, BothEndsTake]
      omega

theorem deliversAccepted_iff_tcp_byte :
    DeliversAccepted (.framed .tcp) (Message.fromParts [1] [2]) :=
  (deliversAccepted_iff (.framed .tcp) (Message.fromParts [1] [2]) (by decide)).mpr (by decide)

/-- A datagram of 65,508 bytes goes out over IPv6 and comes in without its last,
and a frame of a byte more than a gibibyte is written and refused. -/
theorem accepted_not_delivered :
    ¬ DeliversAccepted (.udp .v6) (Message.fromParts [] (List.replicate 65508 0)) ∧
      ¬ DeliversAccepted (.framed .tcp) (Message.fromParts []
        (List.replicate (maxFrameBytes + 1) 0)) := by
  have hlen : ∀ n, (Message.fromParts [] (List.replicate n 0)).len = n := by
    intro n
    rw [Message.len, Message.fromParts, List.length_replicate, List.length_nil, Nat.zero_add]
  refine ⟨?_, ?_⟩
  · rw [deliversAccepted_udp, hlen]
    decide
  · have hrep :
      Representable (Message.fromParts [] (List.replicate (maxFrameBytes + 1) 0)) := by
      refine ⟨Nat.two_pow_pos 63, ?_⟩
      show (List.replicate (maxFrameBytes + 1) 0).length < 2 ^ 63
      rw [List.length_replicate]
      decide
    rw [deliversAccepted_framed .tcp hrep, hlen]
    exact Nat.not_succ_le_self maxFrameBytes

end NngCore.Proofs
