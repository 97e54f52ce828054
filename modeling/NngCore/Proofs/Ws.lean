import NngCore.Spec.Ws

/-!
# Where the upgrade takes a peer the handshake refuses

Both are decided by one protocol, the one the dialer expects. The SP handshake
compares its number with the listener's, the upgrade compares the two names. A
name has one protocol behind it, except for the two versions of PAIR and for
the name of whatever has none (`wsProtocolName_eq_iff`).
-/

namespace NngCore.Proofs

open NngCore.Lib NngCore.Ref NngCore.Spec

/-! ## The names -/

theorem wsProtocolName_unassigned {p : ProtocolId} (h : p ∉ assigned) :
    p.wsProtocolName = "unknown" := by
  unfold ProtocolId.wsProtocolName
  split
  all_goals first | rfl | exact absurd (by decide) h

theorem expectedPeer_unassigned {p : ProtocolId} (h : p ∉ assigned) : p.expectedPeer = p := by
  unfold ProtocolId.expectedPeer
  split
  all_goals first | rfl | exact absurd (by decide) h

theorem wsProtocolName_assigned :
    ∀ p ∈ assigned, p.wsProtocolName ≠ "unknown" := by decide

theorem wsProtocolName_inj_assigned :
    ∀ p ∈ assigned, ∀ q ∈ assigned, p.wsProtocolName = q.wsProtocolName →
      p ≠ q → p ∈ [ProtocolId.pair0, .pair1] ∧ q ∈ [ProtocolId.pair0, .pair1] := by decide

theorem wsProtocolName_pair :
    ∀ p ∈ [ProtocolId.pair0, .pair1], p.wsProtocolName = "pair" := by decide

theorem wsProtocolName_eq_iff {p q : ProtocolId} :
    p.wsProtocolName = q.wsProtocolName ↔ p = q ∨ Homonyms p q := by
  constructor
  · intro h
    by_cases heq : p = q
    · exact Or.inl heq
    refine Or.inr ⟨heq, ?_⟩
    by_cases hp : p ∈ assigned
    · by_cases hq : q ∈ assigned
      · exact Or.inl (wsProtocolName_inj_assigned p hp q hq h heq)
      · rw [wsProtocolName_unassigned hq] at h
        exact absurd h (wsProtocolName_assigned p hp)
    · by_cases hq : q ∈ assigned
      · rw [wsProtocolName_unassigned hp] at h
        exact absurd h.symm (wsProtocolName_assigned q hq)
      · exact Or.inr ⟨hp, hq⟩
  · rintro (rfl | ⟨-, ⟨hp, hq⟩ | ⟨hp, hq⟩⟩)
    · rfl
    · rw [wsProtocolName_pair p hp, wsProtocolName_pair q hq]
    · rw [wsProtocolName_unassigned hp, wsProtocolName_unassigned hq]

theorem wsSubprotocol_eq_iff {p q : ProtocolId} :
    p.wsSubprotocol = q.wsSubprotocol ↔ p = q ∨ Homonyms p q := by
  rw [← wsProtocolName_eq_iff, ProtocolId.wsSubprotocol, ProtocolId.wsSubprotocol]
  constructor
  · intro h
    have hchars := congrArg String.toList h
    rw [String.toList_append, String.toList_append] at hchars
    exact String.toList_inj.mp (List.append_cancel_right hchars)
  · intro h
    rw [h]

theorem visibleAscii_wsSubprotocol (p : ProtocolId) : VisibleAscii p.wsSubprotocol := by
  have hassigned : ∀ p ∈ assigned, VisibleAscii p.wsSubprotocol := by decide
  by_cases h : p ∈ assigned
  · exact hassigned p h
  · rw [ProtocolId.wsSubprotocol, wsProtocolName_unassigned h]
    decide

/-! ## The two handshakes -/

section

variable {V : Type} {http : HeaderValueApi V}

theorem wsAccepted_iff (hhttp : KeepsVisibleAscii http) (d l : ProtocolId) :
    WsAccepted http d l ↔ d.expectedPeer.wsSubprotocol = l.wsSubprotocol := by
  obtain ⟨v, hv, hstr⟩ := hhttp _ (visibleAscii_wsSubprotocol d.expectedPeer)
  obtain ⟨v', hv', hstr'⟩ := hhttp _ (visibleAscii_wsSubprotocol l)
  simp only [WsAccepted, wsConnectAccept, wsRequest, wsUpgrade, hv, Option.bind_some, hstr,
    Option.getD_some, hv']
  by_cases heq : d.expectedPeer.wsSubprotocol = l.wsSubprotocol
  · simp [heq, wsEstablished, hstr']
  · simp [heq]

end

theorem checkPeer_eq_ok {p q : ProtocolId} : checkPeer p q = .ok () ↔ q = p.expectedPeer := by
  rw [checkPeer]
  split
  · next hne => exact ⟨nofun, fun h => absurd h hne⟩
  · next heq => exact ⟨fun _ => Decidable.not_not.mp heq, fun _ => rfl⟩

theorem spAccepted_iff (d l : ProtocolId) : SpAccepted d l ↔ d.expectedPeer = l := by
  rw [SpAccepted, checkPeer_eq_ok, checkPeer_eq_ok]
  constructor
  · rintro ⟨rfl, -⟩
    rfl
  · rintro rfl
    exact ⟨rfl, d.expectedPeer_expectedPeer.symm⟩

/-- A homonym of the expected peer is a homonym of the dialer. -/
theorem homonyms_expectedPeer {d l : ProtocolId} :
    Homonyms d.expectedPeer l ↔ Homonyms d l := by
  have hpair : ∀ p ∈ assigned, p.expectedPeer ∈ assigned ∧
      (p ∈ [ProtocolId.pair0, .pair1] ∨ p.expectedPeer ∈ [ProtocolId.pair0, .pair1] →
        p.expectedPeer = p) := by decide
  by_cases hd : d ∈ assigned
  · obtain ⟨hpeer, hself⟩ := hpair d hd
    constructor
    · rintro ⟨hne, ⟨hp, hl⟩ | ⟨hp, -⟩⟩
      · rw [hself (Or.inr hp)] at hne hp
        exact ⟨hne, Or.inl ⟨hp, hl⟩⟩
      · exact absurd hpeer hp
    · rintro ⟨hne, ⟨hp, hl⟩ | ⟨hp, -⟩⟩
      · rw [hself (Or.inl hp)]
        exact ⟨hne, Or.inl ⟨hp, hl⟩⟩
      · exact absurd hd hp
  · rw [expectedPeer_unassigned hd]

/-- The upgrade and the SP handshake agree on all pairs of protocols but the
homonyms. -/
theorem wsAccepted_iff_spAccepted {V : Type} (http : HeaderValueApi V)
    (hhttp : KeepsVisibleAscii http) (d l : ProtocolId) :
    (WsAccepted http d l ↔ SpAccepted d l) ↔ ¬ Homonyms d l := by
  rw [wsAccepted_iff hhttp, spAccepted_iff, wsSubprotocol_eq_iff, homonyms_expectedPeer]
  constructor
  · intro h hhom
    have heq := h.mp (Or.inr hhom)
    exact (homonyms_expectedPeer.mpr hhom).1 heq
  · intro hhom
    constructor
    · rintro (heq | h)
      · exact heq
      · exact absurd h hhom
    · exact Or.inl

/-- Header values as strings: what is not visible ASCII has none. -/
def visibleHeaderValue : HeaderValueApi String where
  fromStr s := if VisibleAscii s then .ok s else .error "failed to parse header value"
  toStr v := if VisibleAscii v then some v else none

theorem keepsVisibleAscii_visibleHeaderValue : KeepsVisibleAscii visibleHeaderValue := by
  intro s hs
  exact ⟨s, if_pos hs, if_pos hs⟩

theorem wsAccepted_iff_spAccepted_req_rep :
    WsAccepted visibleHeaderValue .req0 .rep0 ↔ SpAccepted .req0 .rep0 :=
  (wsAccepted_iff_spAccepted visibleHeaderValue keepsVisibleAscii_visibleHeaderValue
    .req0 .rep0).mpr (by decide)

/-- A PAIR0 dialer and a PAIR1 listener. -/
theorem pair_versions_upgraded :
    WsAccepted visibleHeaderValue .pair0 .pair1 ∧ ¬ SpAccepted .pair0 .pair1 := by
  refine ⟨by decide, ?_⟩
  rintro ⟨h, -⟩
  cases h

end NngCore.Proofs
