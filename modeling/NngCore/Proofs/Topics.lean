import NngCore.Spec.PubSub

/-!
# Topic filtering

The set holds the topics subscribed to, after every history of calls. What is
left is the range query: it never looks at a topic that sorts above the body,
and a prefix of the body never does, because the two agree as far as the
prefix goes and it ends first.
-/

namespace NngCore.Proofs

open NngCore.Lib NngCore.Ref NngCore.Spec

theorem not_subscribed_nil (topic : List UInt8) : ¬ Subscribed [] topic := nofun

/-- One more call decides about its own topic, and about no other. -/
theorem subscribed_append (calls : List SubCall) (call : SubCall) (topic : List UInt8) :
    Subscribed (calls ++ [call]) topic ↔
      if call.topic = topic then call = .subscribe topic else Subscribed calls topic := by
  rw [Subscribed, List.reverse_concat, List.find?_cons]
  split
  · next heq => rw [if_pos (of_decide_eq_true heq), Option.some.injEq]
  · next hne => rw [if_neg (of_decide_eq_false hne), Subscribed]

theorem mem_apply (s : Sub0State) (call : SubCall) (topic : List UInt8) :
    topic ∈ (s.apply call).subscriptions ↔
      if call.topic = topic then call = .subscribe topic else topic ∈ s.subscriptions := by
  cases call with
  | subscribe t =>
      show topic ∈ s.subscriptions.insert t ↔ if t = topic then _ else _
      rw [OrderedSet.mem_insert]
      split
      · next heq => exact ⟨fun _ => by rw [heq], fun _ => Or.inl heq.symm⟩
      · next hne => exact or_iff_right fun heq => hne heq.symm
  | unsubscribe t =>
      show topic ∈ s.subscriptions.remove t ↔ if t = topic then _ else _
      rw [OrderedSet.mem_remove]
      split
      · next heq => exact ⟨fun h => absurd heq.symm h.2, nofun⟩
      · next hne => exact and_iff_left fun heq => hne heq.symm

/-- After every history the set holds the topics subscribed to. -/
theorem mem_subscriptions (calls : List SubCall) (topic : List UInt8) :
    topic ∈ (calls.foldl Sub0State.apply .new).subscriptions ↔ Subscribed calls topic := by
  induction calls using List.reverseRecOn with
  | nil =>
      exact iff_of_false (OrderedSet.not_mem_empty topic) (not_subscribed_nil topic)
  | append_singleton calls call ih =>
      rw [List.foldl_append, List.foldl_cons, List.foldl_nil, mem_apply,
        subscribed_append, ih]

/-- The part of the set that the range query skips holds no prefix of the body. -/
theorem isMatch_iff {M : Type} [MessageBuf M] (s : Sub0State) (msg : M) :
    s.isMatch msg = true ↔
      ∃ topic, topic <+: MessageBuf.body msg ∧ topic ∈ s.subscriptions := by
  simp only [Sub0State.isMatch, List.any_eq_true, OrderedSet.mem_rangeTo,
    List.isPrefixOf_iff_prefix]
  constructor
  · rintro ⟨topic, ⟨hmem, _⟩, hprefix⟩
    exact ⟨topic, hprefix, hmem⟩
  · rintro ⟨topic, hprefix, hmem⟩
    exact ⟨topic, ⟨hmem, hprefix.le⟩, hprefix⟩

/-- After every history of calls, the filter lets through the messages that
start with a topic subscribed to, and is empty when there is none. -/
theorem topics_filtered (calls : List SubCall) {M : Type} [MessageBuf M] (msg : M) :
    let s := calls.foldl Sub0State.apply .new
    (s.isMatch msg = true ↔
      ∃ topic, topic <+: MessageBuf.body msg ∧ Subscribed calls topic) ∧
    (s.isEmpty = true ↔ ¬ ∃ topic, Subscribed calls topic) := by
  intro s
  constructor
  · rw [isMatch_iff]
    exact exists_congr fun topic => and_congr_right fun _ => mem_subscriptions calls topic
  · rw [Sub0State.isEmpty, OrderedSet.isEmpty_iff, not_exists]
    exact forall_congr' fun topic => not_congr (mem_subscriptions calls topic)

example : Sub0State.isMatch ([.subscribe [1], .subscribe [0xFF], .unsubscribe [1],
    .subscribe []].foldl Sub0State.apply .new) (⟨[], []⟩ : Message) = true := by decide

end NngCore.Proofs
