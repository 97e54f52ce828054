import NngCore.Spec.ReqRep

/-!
# Which backtraces a replier retraces

`process_incoming` takes one word off the front, whatever its high bit says. A
request that came directly is its own backtrace and goes back the way it came.
One that came through forwarders loses the word of the last of them; the words
behind it, the ID among them, stay in front of the payload, and the reply
carries that one word.
-/

namespace NngCore.Proofs

open NngCore.Ref NngCore.Spec

/-- The replier takes the first four bytes, and gives back these. -/
theorem rep_processIncoming_word (m : Message) (word : Vector UInt8 4) (rest : List UInt8)
    (h : m.body = word.toList ++ rest) :
    Rep0State.processIncoming m = some (.ok ⟨word⟩, { m with body := rest }) := by
  have hlen : word.toList.length = 4 := word.size_toArray
  have hlong : ¬ m.body.length < 4 := by
    rw [h, List.length_append]
    omega
  have htake : m.body.take 4 = word.toList := by
    rw [h, List.take_left' hlen]
  have hdrop : m.body.drop 4 = rest := by
    rw [h, List.drop_left' hlen]
  rw [rep_processIncoming_message, dif_neg hlong]
  simp only [htake, hdrop, Option.some.injEq, Prod.mk.injEq, Except.ok.injEq,
    RoutingInfo.mk.injEq, and_true]
  exact Vector.toList_inj.mp (by simp)

theorem backtrace_cons (hop : HopWord) (hops : List HopWord) (last : FinalWord) :
    backtrace (hop :: hops) last = hop.bytes.toList ++ backtrace hops last := by
  rw [backtrace, backtrace, List.flatMap_cons, List.append_assoc]

theorem length_backtrace (hops : List HopWord) (last : FinalWord) :
    (backtrace hops last).length = 4 * hops.length + 4 := by
  induction hops with
  | nil => exact last.bytes.size_toArray
  | cons hop hops ih =>
      have hhop : hop.bytes.toList.length = 4 := hop.bytes.size_toArray
      rw [backtrace_cons, List.length_append, hhop, ih, List.length_cons]
      omega

theorem retraces_direct (last : FinalWord) (payload : List UInt8) :
    Retraces [] last payload := by
  intro request reply hbody hreply
  have hword : request.body = last.bytes.toList ++ payload := hbody
  refine ⟨⟨last.bytes⟩, { request with body := payload },
    reply.headerPushBack last.bytes.toList,
    rep_processIncoming_word request last.bytes payload hword, rfl, rfl, ?_⟩
  show reply.header ++ last.bytes.toList = backtrace [] last
  rw [hreply]
  rfl

/-- One word comes off, so behind a hop the payload keeps the rest. -/
theorem not_retraces_hop (hop : HopWord) (hops : List HopWord) (last : FinalWord)
    (payload : List UInt8) : ¬ Retraces (hop :: hops) last payload := by
  intro h
  obtain ⟨routing, rest, out, hproc, hrest, _, _⟩ :=
    h ⟨[], backtrace (hop :: hops) last ++ payload⟩ .new rfl rfl
  have hword : backtrace (hop :: hops) last ++ payload =
      hop.bytes.toList ++ (backtrace hops last ++ payload) := by
    rw [backtrace_cons, List.append_assoc]
  rw [rep_processIncoming_word _ hop.bytes _ hword] at hproc
  cases hproc
  have hlen : (backtrace hops last ++ payload).length = payload.length :=
    congrArg List.length hrest
  rw [List.length_append, length_backtrace] at hlen
  omega

/-- Exactly the requests that came directly are handled as backtraces are meant
to be. -/
theorem retraces_iff (hops : List HopWord) (last : FinalWord) (payload : List UInt8) :
    Retraces hops last payload ↔ hops = [] := by
  cases hops with
  | nil => exact ⟨fun _ => rfl, fun _ => retraces_direct last payload⟩
  | cons hop hops =>
      constructor
      · intro h
        exact absurd h (not_retraces_hop hop hops last payload)
      · intro h
        cases h

/-- Request number 5 through one forwarder: what the application is handed
starts with the ID. -/
theorem id_left_in_payload :
    ¬ Retraces [⟨#v[0, 0, 0, 1], by decide⟩] ⟨#v[128, 0, 0, 5], by decide⟩ [7] ∧
      Rep0State.processIncoming (⟨[], [0, 0, 0, 1, 128, 0, 0, 5, 7]⟩ : Message) =
        some (.ok ⟨#v[0, 0, 0, 1]⟩, ⟨[], [128, 0, 0, 5, 7]⟩) :=
  ⟨not_retraces_hop _ _ _ _, rfl⟩

end NngCore.Proofs
