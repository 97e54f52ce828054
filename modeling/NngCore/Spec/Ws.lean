import NngCore.Ref.Ws

/-!
# One compatibility, two handshakes

Which peers may talk is a matter of their protocols and not of the transport,
so the upgrade and the SP handshake should take the same ones.
-/

namespace NngCore.Spec

open NngCore.Ref

/-- Visible ASCII, which a header value holds and gives back unchanged. -/
def VisibleAscii (s : String) : Prop := ∀ c ∈ s.toList, 32 ≤ c.toNat ∧ c.toNat < 127

instance (s : String) : Decidable (VisibleAscii s) :=
  List.decidableBAll (fun c : Char => 32 ≤ c.toNat ∧ c.toNat < 127) s.toList

/-- What is documented of the two conversions. -/
def KeepsVisibleAscii {V : Type} (http : HeaderValueApi V) : Prop :=
  ∀ s, VisibleAscii s → ∃ v, http.fromStr s = .ok v ∧ http.toStr v = some s

/-- Both sides of the upgrade succeed. -/
def WsAccepted {V : Type} (http : HeaderValueApi V) (d l : ProtocolId) : Prop :=
  wsConnectAccept http d l = ⟨some (.ok ()), some (.ok ())⟩

instance {V : Type} (http : HeaderValueApi V) (d l : ProtocolId) :
    Decidable (WsAccepted http d l) :=
  inferInstanceAs (Decidable (_ = _))

/-- Both sides of the SP handshake take the other's protocol. -/
def SpAccepted (d l : ProtocolId) : Prop :=
  checkPeer d l = .ok () ∧ checkPeer l d = .ok ()

/-- The protocols that have a number of their own. -/
def assigned : List ProtocolId :=
  [.pair0, .pair1, .pub0, .sub0, .req0, .rep0, .push0, .pull0, .surveyor0, .respondent0,
    .bus0]

/-- Two protocols the header spells alike: the two versions of PAIR, or two that
have no name. -/
def Homonyms (p q : ProtocolId) : Prop :=
  p ≠ q ∧ (p ∈ [ProtocolId.pair0, .pair1] ∧ q ∈ [ProtocolId.pair0, .pair1] ∨
    p ∉ assigned ∧ q ∉ assigned)

instance (p q : ProtocolId) : Decidable (Homonyms p q) :=
  inferInstanceAs (Decidable (_ ∧ _))

end NngCore.Spec
