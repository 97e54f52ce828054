import NngCore.Proofs.RawSocket

/-!
# Both ways over every connection

A step moves one socket or joins two ends. What was written at an end is never
taken back and what was read at a connection that was given up never changes, so
the network's promise for the connection a socket holds (`RawNet.carries`) is all
there is to keep: it holds of every end at every time.
-/

namespace NngCore.Proofs

open NngCore.Lib NngCore.Ref NngCore.Spec

variable {w : PointerWidth}

structure RawNetInv (w : PointerWidth) (s : RawNet) : Prop where
  socks : ∀ v ∈ s.socks, RawSocketInv w v
  carries : ∀ e c, s.conn? e = some c → c.took <+: s.farWire e
  ends : s.ends.Nodup
  joined : ∀ e f, s.far e = some f →
    ∃ l m, s.line? e = some l ∧ s.line? f = some m ∧ l.conn.fmt = m.conn.fmt

/-! ## A socket moves -/

theorem conn?_past {s t : RawSocket} (h : SocketMoves s t) {k : Nat} (hk : k < t.past.length) :
    t.conns[k]? = s.conns[k]? := by
  rw [RawSocket.conns, List.getElem?_append_left hk, RawSocket.conns]
  rcases h.past with hpast | hpast
  · rw [hpast] at hk ⊢
    rw [List.getElem?_append_left hk]
  · rw [hpast]

theorem line?_set {s : RawNet} {p : Nat} {v v' : RawSocket} (hv : s.socks[p]? = some v)
    (hmoves : SocketMoves v v') {e : LineEnd} {line : SendLine}
    (hline : s.line? e = some line) :
    ∃ line', { s with socks := s.socks.set p v' }.line? e = some line' ∧
      LineGrows line line' := by
  rw [RawNet.line?] at hline ⊢
  by_cases hp : p = e.1
  · subst hp
    rw [hv] at hline
    rw [List.getElem?_set_self (List.getElem?_eq_some_iff.mp hv).1]
    exact hmoves.out.get hline
  · refine ⟨line, ?_, lineGrows_refl line⟩
    rw [List.getElem?_set_ne hp]
    exact hline

theorem farWire_set {s : RawNet} {p : Nat} {v v' : RawSocket} (hv : s.socks[p]? = some v)
    (hmoves : SocketMoves v v') (e : LineEnd) :
    s.farWire e <+: { s with socks := s.socks.set p v' }.farWire e := by
  have hfar : { s with socks := s.socks.set p v' }.far e = s.far e := rfl
  rw [RawNet.farWire, RawNet.farWire, hfar]
  cases hf : s.far e with
  | none => exact List.prefix_rfl
  | some f =>
      rw [Option.bind_some, Option.bind_some]
      cases hline : s.line? f with
      | none => exact List.nil_prefix
      | some line =>
          obtain ⟨line', hline', -, hwire⟩ := line?_set hv hmoves hline
          rw [hline']
          exact hwire

theorem carries_prefix {s : RawNet} {e : LineEnd} {c : FramedConn} (h : s.carries e = true)
    (hc : s.conn? e = some c) : c.took <+: s.farWire e := by
  rw [RawNet.carries, hc] at h
  exact List.isPrefixOf_iff_prefix.mp h

theorem RawNetInv.sock {s : RawNet} (h : RawNetInv w s) {p : Nat} {v v' : RawSocket}
    {a : RawSocketAct} (hv : s.socks[p]? = some v) (hstep : v.step w a = some v')
    (hcarries : { s with socks := s.socks.set p v' }.carries (p, v'.past.length) = true) :
    RawNetInv w { s with socks := s.socks.set p v' } := by
  have hinv := h.socks v (List.mem_of_getElem? hv)
  have hmoves := hinv.moves hstep
  refine ⟨fun u hu => ?_, fun e c hc => ?_, h.ends, fun e f hfar => ?_⟩
  · rcases List.mem_or_eq_of_mem_set hu with hu | rfl
    · exact h.socks u hu
    · exact hinv.step hstep
  · obtain ⟨q, k⟩ := e
    by_cases hp : p = q
    · subst hp
      have hget : v'.conns[k]? = some c := by
        rw [RawNet.conn?, List.getElem?_set_self (List.getElem?_eq_some_iff.mp hv).1] at hc
        exact hc
      have hlen := (List.getElem?_eq_some_iff.mp hget).1
      rw [RawSocket.conns, List.length_append, List.length_singleton] at hlen
      rcases Nat.lt_or_eq_of_le (Nat.le_of_lt_succ hlen) with hlt | rfl
      · -- a connection given up
        have hold : s.conn? (p, k) = some c := by
          rw [RawNet.conn?, hv]
          exact (conn?_past hmoves hlt).symm.trans hget
        exact (h.carries _ c hold).trans (farWire_set hv hmoves _)
      · exact carries_prefix hcarries hc
    · have hold : s.conn? (q, k) = some c := by
        rw [RawNet.conn?, List.getElem?_set_ne hp] at hc
        exact hc
      exact (h.carries _ c hold).trans (farWire_set hv hmoves _)
  · obtain ⟨l, m, hl, hm, hfmt⟩ := h.joined e f hfar
    obtain ⟨l', hl', hlfmt, -⟩ := line?_set hv hmoves hl
    obtain ⟨m', hm', hmfmt, -⟩ := line?_set hv hmoves hm
    exact ⟨l', m', hl', hm', hlfmt.trans (hfmt.trans hmfmt.symm)⟩

/-! ## Two ends are joined -/

theorem RawNetInv.joins {s : RawNet} (h : RawNetInv w s) {e f : LineEnd} {l m : SendLine}
    (hl : s.line? e = some l) (hm : s.line? f = some m) (hfmt : l.conn.fmt = m.conn.fmt)
    (he : s.far e = none) (hf : s.far f = none) (hne : e ≠ f) :
    RawNetInv w { s with wires := s.wires ++ [(e, f)] } := by
  refine ⟨h.socks, fun g c hc => ?_, ?_, fun g g' hfar => ?_⟩
  · have hread := h.carries g c hc
    by_cases hg : g = e ∨ g = f
    · -- nothing was read there yet
      have hnone : s.far g = none := by
        rcases hg with rfl | rfl
        · exact he
        · exact hf
      rw [RawNet.farWire, hnone] at hread
      rw [List.prefix_nil.mp hread]
      exact List.nil_prefix
    · rw [not_or] at hg
      rw [RawNet.farWire, RawNet.far, Matching.partner_concat hg.1 hg.2]
      exact hread
  · exact Matching.nodup_ends_concat h.ends hne (Matching.partner_eq_none.mp he)
      (Matching.partner_eq_none.mp hf)
  · rcases Matching.mem_of_partner hfar with hmem | hmem <;>
      rcases List.mem_append.mp hmem with hold | hnew
    · exact h.joined g g' (Matching.partner_of_mem h.ends (.inl hold))
    · cases List.mem_singleton.mp hnew
      exact ⟨l, m, hl, hm, hfmt⟩
    · exact h.joined g g' (Matching.partner_of_mem h.ends (.inr hold))
    · cases List.mem_singleton.mp hnew
      exact ⟨m, l, hm, hl, hfmt.symm⟩

theorem RawNetInv.connect {s t : RawNet} (h : RawNetInv w s) {e f : LineEnd}
    (hstep : s.connect e f = some t) : RawNetInv w t := by
  unfold RawNet.connect at hstep
  split at hstep
  · next l m hl hm =>
      split at hstep
      · cases hstep
      · next hfree =>
          rw [Bool.or_eq_true, not_or, Option.not_isSome_iff_eq_none,
            Option.not_isSome_iff_eq_none] at hfree
          split at hstep
          · cases hstep
          · next hne =>
              split at hstep
              · next hfmt =>
                  cases hstep
                  exact h.joins hl hm hfmt hfree.1 hfree.2 hne
              · cases hstep
  · cases hstep

theorem RawNetInv.step {s t : RawNet} {a : RawNetAct} (h : RawNetInv w s)
    (hstep : s.step w a = some t) : RawNetInv w t := by
  cases a with
  | sock p a =>
      simp only [RawNet.step] at hstep
      split at hstep
      · cases hstep
      · next v hv =>
          split at hstep
          · cases hstep
          · next v' hv' =>
              split at hstep
              · next hcarries =>
                  cases hstep
                  exact h.sock hv hv' hcarries
              · cases hstep
  | connect e f => exact h.connect hstep

/-- A connection has its two halves. -/
theorem RawSocketInv.halves {s : RawSocket} (h : RawSocketInv w s) (k : Nat) :
    (s.out.lines[k]? = none ∧ s.conns[k]? = none) ∨
      ∃ line c, s.out.lines[k]? = some line ∧ s.conns[k]? = some c ∧ ReadsOk w line c := by
  have hall : List.Forall₂ (ReadsOk w) s.out.lines s.conns :=
    List.rel_append h.past (.cons h.held .nil)
  obtain ⟨hlen, hget⟩ := List.forall₂_iff_get.mp hall
  by_cases hk : k < s.out.lines.length
  · have hk' : k < s.conns.length := hlen ▸ hk
    exact .inr ⟨s.out.lines[k], s.conns[k], List.getElem?_eq_getElem hk,
      List.getElem?_eq_getElem hk', hget k hk hk'⟩
  · have hle := Nat.le_of_not_lt hk
    exact .inl ⟨List.getElem?_eq_none hle, List.getElem?_eq_none (hlen ▸ hle)⟩

theorem RawNetInv.halves {s : RawNet} (h : RawNetInv w s) (e : LineEnd) :
    (s.line? e = none ∧ s.conn? e = none) ∨
      ∃ line c, s.line? e = some line ∧ s.conn? e = some c ∧ ReadsOk w line c := by
  rw [RawNet.line?, RawNet.conn?]
  cases hv : s.socks[e.1]? with
  | none => exact .inl ⟨rfl, rfl⟩
  | some v => exact (h.socks v (List.mem_of_getElem? hv)).halves e.2

theorem RawNetInv.conn_of_line {s : RawNet} (h : RawNetInv w s) {e : LineEnd} {line : SendLine}
    (hline : s.line? e = some line) : ∃ c, s.conn? e = some c ∧ ReadsOk w line c := by
  rcases h.halves e with ⟨hnone, -⟩ | ⟨line', c, hline', hc, hreads⟩
  · cases hline.symm.trans hnone
  · cases hline.symm.trans hline'
    exact ⟨c, hc, hreads⟩

theorem farWire_far {s : RawNet} {e f : LineEnd} {line : SendLine} (hfar : s.far f = some e)
    (hline : s.line? e = some line) : s.farWire f = line.conn.wire := by
  rw [RawNet.farWire, hfar, Option.bind_some, hline]

/-- One direction of a connection. -/
theorem RawNetInv.direction {s : RawNet} (h : RawNetInv w s)
    (hfit : ∀ v ∈ s.socks, ∀ m ∈ v.out.sent, m.len ≤ maxFrameBytes) {e f : LineEnd}
    {line : SendLine} {c : FramedConn} (hfar : s.far e = some f)
    (hline : s.line? e = some line)
    (htorn : line.torn = false) (hc : s.conn? f = some c) :
    FramedConn.messages c <+: line.done.map Message.received ∧
      (c.took = line.conn.wire → FramedConn.messages c = line.done.map Message.received) := by
  obtain ⟨l, m, hl, hm, hfmt⟩ := h.joined e f hfar
  cases hline.symm.trans hl
  obtain ⟨c', hc', items, p, hat⟩ := h.conn_of_line hm
  cases hc.symm.trans hc'
  have hown := hat.ownFrames
  rw [← hfmt] at hown
  have htook := h.carries f c hc
  rw [farWire_far (Matching.partner_symm h.ends hfar) hline] at htook
  obtain ⟨v, hv, hget⟩ := Option.bind_eq_some_iff.mp hline
  have hmem := List.mem_of_getElem? hv
  exact (h.socks v hmem).out.messages (List.mem_of_getElem? hget) htorn (hfit v hmem) hown
    htook

theorem RawNetInv.order {s : RawNet} (h : RawNetInv w s)
    (hfit : ∀ v ∈ s.socks, ∀ m ∈ v.out.sent, m.len ≤ maxFrameBytes) {p k : Nat}
    {line : SendLine} (hline : s.line? (p, k) = some line) (htorn : line.torn = false) :
    heardOf s p k <+: line.done.map Message.received := by
  unfold heardOf
  split
  · exact List.nil_prefix
  · next c hc =>
      obtain ⟨f, hfar, hconn⟩ := Option.bind_eq_some_iff.mp hc
      exact (h.direction hfit hfar hline htorn hconn).1

end NngCore.Proofs
