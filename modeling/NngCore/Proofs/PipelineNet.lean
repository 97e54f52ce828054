import NngCore.Proofs.Push0Fan
import NngCore.Proofs.Wire
import NngCore.Spec.PipelineNet

/-!
# A message goes to one pull socket

Both ends are done already: a worker's stream carries frames of its share
(`Push0Fan`), and what is received is what was written (`Wire`). Between them
only this is left: nothing that was written is ever taken back, so what was a
beginning of a stream stays one.
-/

namespace NngCore.Proofs

open NngCore.Lib NngCore.Ref NngCore.Spec

variable {w : PointerWidth}

/-! ## Streams only grow -/

def Grows : PushConn → PushConn → Prop
  | .framed fmt wire, .framed fmt' wire' => fmt = fmt' ∧ wire <+: wire'
  | .ws items, .ws items' => items <+: items'
  | _, _ => False

theorem grows_refl (conn : PushConn) : Grows conn conn := by
  cases conn with
  | framed fmt wire => exact ⟨rfl, List.prefix_rfl⟩
  | ws items => exact List.prefix_rfl

theorem write_grows (v : Worker) (bs : List UInt8) : Grows v.conn (v.write bs).conn := by
  cases hc : v.conn with
  | framed fmt wire =>
      simp only [Worker.write, hc]
      exact ⟨rfl, List.prefix_append _ _⟩
  | ws items =>
      simp only [Worker.write, hc]
      exact List.prefix_rfl

theorem take_grows (v : Worker) (msg : Message) : Grows v.conn (v.take msg).conn := by
  cases hc : v.conn with
  | framed fmt wire =>
      simp only [Worker.take, hc]
      exact ⟨rfl, List.prefix_rfl⟩
  | ws items =>
      simp only [Worker.take, hc]
      exact List.prefix_append _ _

/-- Every worker is still there, with what was on its stream. -/
def AllGrow (ws ws' : List Worker) : Prop :=
  ∀ (i : Nat) (v : Worker), ws[i]? = some v →
    ∃ v' : Worker, ws'[i]? = some v' ∧ Grows v.conn v'.conn

theorem allGrow_set {ws : List Worker} {j : Nat} {v v' : Worker} (hj : ws[j]? = some v)
    (h : Grows v.conn v'.conn) : AllGrow ws (ws.set j v') := by
  intro i u hu
  by_cases hij : j = i
  · subst hij
    rw [hj] at hu
    cases hu
    exact ⟨v', List.getElem?_set_self (List.getElem?_eq_some_iff.mp hj).1, h⟩
  · exact ⟨u, by rw [List.getElem?_set_ne hij]; exact hu, grows_refl _⟩

theorem settle_workers (s : Push0Fan) (j : Nat) (v : Worker) (msg : Message)
    (poll : SendPoll) :
    ∃ v', (s.settle j v msg poll).workers = s.workers.set j v' ∧ v'.conn = v.conn := by
  match poll with
  | .pending fut => exact ⟨v, rfl, rfl⟩
  | .ready (.ok ()) => exact ⟨_, rfl, rfl⟩
  | .ready (.error e) => exact ⟨v, rfl, rfl⟩

theorem settle_grows {s : Push0Fan} {j : Nat} {v v' : Worker} (hj : s.workers[j]? = some v)
    {msg : Message} {poll : SendPoll} (h : Grows v.conn v'.conn) :
    AllGrow s.workers (s.settle j v' msg poll).workers := by
  obtain ⟨v'', hws, hconn⟩ := settle_workers s j v' msg poll
  rw [hws]
  exact allGrow_set hj (by rw [hconn]; exact h)

theorem push_grows (s : Push0Fan) (msg : Message) :
    AllGrow s.workers (s.push msg).workers := by
  unfold Push0Fan.push
  split
  · exact fun i v hv => ⟨v, hv, grows_refl _⟩
  · dsimp only
    split
    · exact fun i v hv => ⟨v, hv, grows_refl _⟩
    · next v hv =>
        split
        · refine settle_grows (s := turned s msg) hv ?_
          exact grows_refl v.conn
        · exact allGrow_set hv (grows_refl v.conn)

theorem pushFan_grows {s t : Push0Fan} {a : PushAct} (h : s.step a = some t) :
    AllGrow s.workers t.workers := by
  unfold Push0Fan.step at h
  split at h
  · next msg _ =>
      split at h
      · cases h
      · cases h
        exact push_grows s msg
  · next r i msg fut _ =>
      split at h
      · cases h
      · next v hv =>
          cases r with
          | ok n =>
              simp only [Push0Fan.written] at h
              split at h
              · cases h
                refine settle_grows hv ?_
                exact write_grows v _
              · cases h
          | err e =>
              cases h
              refine settle_grows hv ?_
              exact grows_refl v.conn
  · next r passed i msg _ =>
      split at h
      · cases h
      · next v hv =>
          cases r with
          | ok u =>
              simp only [Push0Fan.wsSent] at h
              split at h
              · cases h
                exact allGrow_set hv (take_grows v msg)
              · cases h
          | error e =>
              cases h
              refine allGrow_set hv ?_
              cases passed with
              | false => exact grows_refl v.conn
              | true => exact take_grows v msg
  · next passed i msg fut _ =>
      split at h
      · cases h
      · next v hv =>
          cases h
          cases fut with
          | framed fut => exact allGrow_set hv (grows_refl v.conn)
          | ws =>
              refine allGrow_set hv ?_
              cases passed with
              | false => exact grows_refl v.conn
              | true => exact take_grows v msg
  · cases h

/-! ## One connection -/

theorem carries_grows {conn conn' : PushConn} {c : SubConn} (h : Grows conn conn')
    (hc : conn.carries c = true) : conn'.carries c = true := by
  cases conn with
  | framed fmt wire =>
      cases conn' with
      | ws items => exact h.elim
      | framed fmt' wire' =>
          cases c with
          | ws c => exact hc
          | framed c =>
              have hpre := List.isPrefixOf_iff_prefix.mp hc
              exact List.isPrefixOf_iff_prefix.mpr (hpre.trans h.2)
  | ws items =>
      cases conn' with
      | framed fmt wire => exact h.elim
      | ws items' =>
          cases c with
          | framed c => exact hc
          | ws c =>
              have hpre := List.isPrefixOf_iff_prefix.mp hc
              exact List.isPrefixOf_iff_prefix.mpr (hpre.trans h)

theorem grows_fmt {conn conn' : PushConn} (h : Grows conn conn') : conn'.fmt = conn.fmt := by
  cases conn with
  | framed fmt wire =>
      cases conn' with
      | framed fmt' wire' => exact h.1.symm
      | ws items => exact h.elim
  | ws items =>
      cases conn' with
      | framed fmt wire => exact h.elim
      | ws items' => rfl

theorem message_data (took : List WsItem) :
    took.filterMap WsItem.message =
      (took.filterMap WsItem.data?).map (Message.fromParts []) := by
  rw [List.map_filterMap]
  refine List.filterMap_congr fun i _ => ?_
  cases i <;> rfl

theorem map_payloads (msgs : List Message) :
    (payloads msgs).map (Message.fromParts []) = msgs.map Message.received :=
  List.map_map

/-- What came through a connection whose stream is whole. -/
theorem share_of_connection {v : Worker} {c : SubConn} (hat : ConnAt w v.conn.fmt c)
    (hcarries : v.conn.carries c = true) (hdel : Delivered v) (htorn : v.torn = false)
    (hfit : ∀ m ∈ v.given, m.len ≤ maxFrameBytes) :
    (SubConn.messages c).Sublist (v.given.map Message.received) ∧
      (AllRead v.conn c → (v.done.map Message.received).Sublist (SubConn.messages c)) := by
  obtain ⟨hdone, hconn⟩ := hdel
  cases hv : v.conn with
  | framed fmt wire =>
      rw [hv] at hat hcarries hconn
      cases c with
      | ws c => cases hcarries
      | framed c =>
          obtain ⟨part, hwire, hpart⟩ := hconn.2 htorn
          have hunfinished : Unfinished fmt part := by
            rcases hpart with hnil | ⟨msg, hmsg, hpre, hne⟩
            · exact Or.inl hnil
            · exact Or.inr ⟨msg, hfit msg hmsg, hpre, hne⟩
          have htook : c.took <+: v.done.flatMap (frameBytes fmt) ++ part := by
            rw [← hwire]
            exact List.isPrefixOf_iff_prefix.mp hcarries
          obtain ⟨hbegin, hall⟩ := messages_of_wire (ConnAt.ownMessages hat)
            (fun m hm => hfit m (hdone.subset hm)) hunfinished htook
          rw [messages_framed]
          refine ⟨hbegin.sublist.trans (hdone.map _), fun hread => ?_⟩
          have hread' : c.took = wire := hread
          rw [hall (hread'.trans hwire)]
  | ws items =>
      rw [hv] at hat hcarries hconn
      cases c with
      | framed c => cases hcarries
      | ws c =>
          have hitems := List.isPrefixOf_iff_prefix.mp hcarries
          have hmsgs : SubConn.messages (.ws c) =
              (c.took.filterMap WsItem.data?).map (Message.fromParts []) :=
            (show OwnItems c from hat).trans (message_data c.took)
          rw [hmsgs, ← map_payloads, ← map_payloads]
          refine ⟨(hitems.sublist.trans hconn.2).map _, fun hread => ?_⟩
          have hread' : c.took.filterMap WsItem.data? = items := hread
          rw [hread']
          exact hconn.1.map _

/-! ## Runs -/

structure PipelineInv (w : PointerWidth) (n : Nat) (s : PipelineNet) : Prop where
  fan : PushInv n s.fan
  count : s.pullers.length = n
  conns : ∀ (i : Nat) (v : Worker) (c : SubConn), s.fan.workers[i]? = some v →
    s.pullers[i]? = some c → ConnAt w v.conn.fmt c ∧ v.conn.carries c = true

theorem pipelineInv_connected {n : Nat} {attempts : List (Option PushKind)} {fan : Push0Fan}
    (h : Push0Fan.listenAndAccept n attempts = some fan) :
    PipelineInv w n (.connected fan) := by
  have hfan := pushInv_listen h
  refine ⟨hfan, (List.length_map _).trans hfan.count, ?_⟩
  intro i v c hv hc
  obtain ⟨workers, hloop, rfl⟩ := Option.map_eq_some_iff.mp h
  obtain ⟨-, hfresh⟩ := acceptLoop_workers
    (fun _ hw => absurd hw List.not_mem_nil) (Nat.zero_le n) hloop
  obtain ⟨kind, rfl⟩ := hfresh v (List.mem_of_getElem? hv)
  have hother : c = (Worker.fresh kind).conn.other := by
    have hv' : workers[i]? = some (.fresh kind) := hv
    have hc' : (workers.map fun v => v.conn.other)[i]? = some c := hc
    rw [List.getElem?_map, hv'] at hc'
    exact (Option.some.inj hc').symm
  rw [hother]
  cases kind with
  | framed fmt => exact ⟨connAt_fresh .framed, rfl⟩
  | ws => exact ⟨connAt_fresh .ws, rfl⟩

theorem PipelineInv.step {n : Nat} {s t : PipelineNet} {a : PipelineAct}
    (h : PipelineInv w n s) (hstep : s.step w a = some t) : PipelineInv w n t := by
  cases a with
  | fan a =>
      obtain ⟨fan, hfan, rfl⟩ := Option.map_eq_some_iff.mp hstep
      refine ⟨(h.fan.step hfan).1, h.count, ?_⟩
      intro i v' c hv' hc
      have hlt : i < s.fan.workers.length := by
        rw [h.fan.count, ← h.count]
        exact (List.getElem?_eq_some_iff.mp hc).1
      have hv := List.getElem?_eq_getElem hlt
      obtain ⟨v'', hv'', hgrows⟩ := pushFan_grows hfan i _ hv
      cases hv''.symm.trans hv'
      obtain ⟨hat, hcarries⟩ := h.conns i _ c hv hc
      exact ⟨by rw [grows_fmt hgrows]; exact hat, carries_grows hgrows hcarries⟩
  | pull i a =>
      simp only [PipelineNet.step] at hstep
      split at hstep
      · next v c hv hc =>
          split at hstep
          · cases hstep
          · next c' hc' =>
              split at hstep
              · next hcarries =>
                  cases hstep
                  refine ⟨h.fan, (List.length_set ..).trans h.count, ?_⟩
                  intro j u d hu hd
                  by_cases hij : i = j
                  · subst hij
                    cases hv.symm.trans hu
                    rw [List.getElem?_set_self (List.getElem?_eq_some_iff.mp hc).1] at hd
                    cases hd
                    exact ⟨(h.conns i v c hv hc).1.step hc', hcarries⟩
                  · rw [List.getElem?_set_ne hij] at hd
                    exact h.conns j u d hu hd
              · cases hstep
      · cases hstep

/-! ## Both ends -/

/-- However sending, reading and dropping interleave: a pull socket whose stream is
whole has pulled messages of its own worker's share and no others, in order and
each at most once, and all that was sent to it if it has read all there is. -/
theorem pipeline_shares (w : PointerWidth) (n : Nat) (attempts : List (Option PushKind))
    (acts : List PipelineAct) {fan : Push0Fan} {s : PipelineNet}
    (hstart : Push0Fan.listenAndAccept n attempts = some fan)
    (hrun : run (PipelineNet.step w) (.connected fan) acts = some s)
    (hfit : ∀ m ∈ s.fan.pushed, m.len ≤ maxFrameBytes) : EachItsShare n s := by
  have h : PipelineInv w n s :=
    run_invariant (pipelineInv_connected hstart) (fun _ _ _ hu hstep => hu.step hstep) hrun
  refine ⟨h.count, fun i v c hv hc htorn => ?_⟩
  have hgiven := h.fan.given i v hv
  rw [← hgiven]
  obtain ⟨hat, hcarries⟩ := h.conns i v c hv hc
  refine share_of_connection hat hcarries (h.fan.worker i v hv).delivered htorn fun m hm => ?_
  rw [hgiven] at hm
  exact hfit m (mem_of_mem_source hm)

/-! Two workers; the second is behind a WebSocket. The first call is dropped before
its first write, which leaves the stream whole, and the third reaches the first
worker while its pull socket reads a byte at a time. -/

def pullFirst : List PipelineAct :=
  [.fan (.push ⟨[], [1]⟩), .fan (.drop false), .fan (.push ⟨[], [2]⟩), .pull 1 .call,
    .fan (.sent (.ok ()) true), .pull 1 (.item .other), .pull 1 (.item (.binary [2])),
    .fan (.push ⟨[], [3]⟩), .fan (.write (.ok 8)), .pull 0 .call,
    .pull 0 (.read (.ok [0, 0, 0])), .pull 0 .drop, .fan (.write (.ok 1)), .pull 0 .call,
    .pull 0 (.read (.ok [0, 0, 0, 0, 1])), .pull 0 (.read (.ok [3]))]

theorem pipeline_shares_three_calls :
    ∃ fan s, Push0Fan.listenAndAccept 2 twoWorkers = some fan ∧
      run (PipelineNet.step .w64) (.connected fan) pullFirst = some s ∧
        s.pullers.map SubConn.messages = [[⟨[], [3]⟩], [⟨[], [2]⟩]] ∧ EachItsShare 2 s :=
  ⟨_, _, rfl, rfl, by decide +kernel,
    pipeline_shares .w64 2 twoWorkers pullFirst rfl rfl (by decide +kernel)⟩

end NngCore.Proofs
