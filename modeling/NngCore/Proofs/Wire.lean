import NngCore.Proofs.Send
import NngCore.Proofs.Sub0

/-!
# What is received is what was written

A framed connection gives the messages of the frames in what was read on it.
If that is a beginning of the frames of `msgs`, with part of one more behind
them, it has given the first few of `msgs` and nothing else; and all of them,
if all was read.
-/

namespace NngCore.Proofs

open NngCore.Lib NngCore.Ref NngCore.Spec

variable {w : PointerWidth} {fmt : FrameFormat}

/-- A beginning of a frame that is not the whole of it. -/
def Unfinished (fmt : FrameFormat) (part : List UInt8) : Prop :=
  part = [] ∨ ∃ msg : Message, msg.len ≤ maxFrameBytes ∧ part <+: frameBytes fmt msg ∧
    part ≠ frameBytes fmt msg

theorem partial_of_unfinished {part : List UInt8} (h : Unfinished fmt part) :
    (framing w fmt).Partial part := by
  rcases h with rfl | ⟨msg, hfit, hpre, hne⟩
  · exact Framing.partial_nil
  · intro it hit
    have hsym := symbols_frameItem w fmt msg hfit
    rw [← hsym] at hpre hne
    have hsame : it = frameItem w fmt msg hfit :=
      Framing.Item.eq_of_prefix (hit.trans hpre) List.prefix_rfl
    rw [hsame] at hit
    exact hne (hpre.eq_of_length (Nat.le_antisymm hpre.length_le hit.length_le))

theorem messages_framed (c : FramedConn) :
    SubConn.messages (.framed c) = c.recv.results.filterMap Except.toOption := by
  show (c.recv.results.map _).filterMap _ = _
  rw [List.filterMap_map]
  refine List.filterMap_congr fun r _ => ?_
  cases r <;> rfl

/-- The messages a framed connection gave, against what was written at its other
end. -/
theorem messages_of_wire {c : FramedConn} (h : OwnFrames w fmt c) {msgs : List Message}
    (hfit : ∀ m ∈ msgs, m.len ≤ maxFrameBytes) {part : List UInt8}
    (hpart : Unfinished fmt part)
    (hpre : c.took <+: msgs.flatMap (frameBytes fmt) ++ part) :
    c.recv.results.filterMap Except.toOption <+: msgs.map Message.received ∧
      (c.took = msgs.flatMap (frameBytes fmt) ++ part →
        c.recv.results.filterMap Except.toOption = msgs.map Message.received) := by
  obtain ⟨items, p, htook, hp, hmsgs⟩ := h
  obtain ⟨ys, hys, hans⟩ := frames_items w fmt hfit
  have hpartial : (framing w fmt).Partial part := partial_of_unfinished hpart
  have hall : ys.filterMap (fun it => (answer w fmt it).toOption) =
    msgs.map Message.received := by
    have hcomp := congrArg (List.filterMap Except.toOption) hans
    rw [List.filterMap_map, List.filterMap_map] at hcomp
    exact hcomp.trans (congrFun List.filterMap_eq_map msgs)
  rw [← hys, htook] at hpre
  rw [hmsgs, ← hall, ← hys, htook]
  refine ⟨?_, fun heq => ?_⟩
  · exact (Framing.prefix_of_encode_prefix hpartial
      ((List.prefix_append _ _).trans hpre)).filterMap _
  · rw [(Framing.parse_unique hp hpartial heq).1]

end NngCore.Proofs
