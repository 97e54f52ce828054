import NngCore.Proofs.Recv
import NngCore.Spec.Pool

/-!
# A pooled receive is a receive

A recycled buffer comes with old bytes in it, and they stay there until a read
overwrites them. They are never looked at: the only buffer handed out is one
that is filled to its length. `ReceivedAlike` is what two receive buffers have to agree
on for that, everything except the bytes behind the filled part, and every
piece of `recv_inner` keeps two such buffers alike and stops the same way on
both, so the run with the pool is simulated by the run without.

Nothing is asked of the state the run starts in. A slice index that would be
out of range is out of range on both sides.
-/

namespace NngCore.Proofs

open NngCore.Lib NngCore.Ref NngCore.Spec

variable {w : PointerWidth} {fmt : FrameFormat}

/-- The same progress, and the same bytes as far as they have been received. -/
structure ReceivedAlike (rx rx' : RecvBuf) : Prop where
  phase : rx'.phase = rx.phase
  lenBuf : rx'.lenBuf = rx.lenBuf
  lenFilled : rx'.lenFilled = rx.lenFilled
  bodyFilled : rx'.bodyFilled = rx.bodyFilled
  length : rx'.body.length = rx.body.length
  received : rx'.body.take rx.bodyFilled = rx.body.take rx.bodyFilled

theorem receivedAlike_refl (rx : RecvBuf) : ReceivedAlike rx rx :=
  ⟨rfl, rfl, rfl, rfl, rfl, rfl⟩

/-- A write behind the received bytes, on two buffers with the same ones. -/
theorem take_overwrite_congr {buf buf' bs : List UInt8} {off : Nat}
    (hlen : buf'.length = buf.length) (h : buf'.take off = buf.take off) :
    (overwrite buf' off bs).take (off + bs.length) =
      (overwrite buf off bs).take (off + bs.length) := by
  by_cases hoff : off ≤ buf.length
  · have hfront : min (off + bs.length) buf.length ≤ (buf.take off ++ bs).length := by
      rw [List.length_append, List.length_take]
      omega
    rw [overwrite, overwrite, hlen, List.take_take, List.take_take, h,
      List.take_append_of_le_length hfront, List.take_append_of_le_length hfront]
  · -- both are received to the end, so they are the same buffer
    rw [List.take_of_length_le (by omega), List.take_of_length_le (by omega)] at h
    rw [h]

/-! ## The pieces of `recv_inner` -/

/-- Two pieces that stopped the same way, with their buffers alike. -/
structure StopAlike (a b : RecvBuf × RecvPoll) : Prop where
  rx : ReceivedAlike a.1 b.1
  poll : b.2 = a.2

theorem recvBody_alike {rx rx' : RecvBuf} (h : ReceivedAlike rx rx') :
    StopAlike (recvBody rx) (recvBody rx') := by
  rw [recvBody, recvBody, h.bodyFilled, h.length]
  by_cases hlt : rx.bodyFilled < rx.body.length
  · rw [if_pos hlt, if_pos hlt]
    cases sliceLen rx.body.length rx.bodyFilled rx.body.length with
    | none => exact ⟨h, rfl⟩
    | some room => exact ⟨h, rfl⟩
  · have hbody : rx'.body = rx.body := by
      have hall := h.received
      rwa [List.take_of_length_le (by rw [h.length]; omega),
        List.take_of_length_le (by omega)] at hall
    rw [if_neg hlt, if_neg hlt, hbody]
    exact ⟨⟨rfl, h.lenBuf, h.lenFilled, rfl, rfl, rfl⟩, rfl⟩

section Closures

variable {K S K' S' : Type} {alloc : K → S → Nat → List UInt8 × S}
variable {alloc' : K' → S' → Nat → List UInt8 × S'}

theorem recvLen_alike (halloc : Sized alloc) (halloc' : Sized alloc') (k : K) (s : S)
    (k' : K') (s' : S') {rx rx' : RecvBuf} (h : ReceivedAlike rx rx') :
    StopAlike (recvLen alloc w fmt k s rx).2 (recvLen alloc' w fmt k' s' rx').2 := by
  rw [recvLen, recvLen, h.lenFilled, h.lenBuf]
  by_cases hlt : rx.lenFilled < fmt.needed
  · rw [if_pos hlt, if_pos hlt]
    cases sliceLen 9 rx.lenFilled fmt.needed with
    | none => exact ⟨h, rfl⟩
    | some room => exact ⟨h, rfl⟩
  · rw [if_neg hlt, if_neg hlt]
    cases payloadLen w fmt rx.lenBuf.toList with
    | error e =>
        exact ⟨⟨rfl, rfl, rfl, h.bodyFilled, h.length, h.received⟩, rfl⟩
    | ok len =>
        -- the one place where the buffers come from different closures
        have hlen : (alloc' k' s' len).1.length = (alloc k s len).1.length := by
          rw [halloc k s len, halloc' k' s' len]
        exact recvBody_alike ⟨rfl, rfl, rfl, rfl, hlen, rfl⟩

theorem recvInner_alike (halloc : Sized alloc) (halloc' : Sized alloc') (k : K) (s : S)
    (k' : K') (s' : S') {rx rx' : RecvBuf} (h : ReceivedAlike rx rx') :
    StopAlike (recvInner alloc w fmt k s rx).2 (recvInner alloc' w fmt k' s' rx').2 := by
  simp only [recvInner, h.phase]
  by_cases hidle : rx.phase = .idle
  · simp only [if_pos hidle, if_true]
    exact recvLen_alike halloc halloc' k s k' s'
      ⟨rfl, h.lenBuf, rfl, h.bodyFilled, h.length, h.received⟩
  · simp only [if_neg hidle, h.phase]
    by_cases hlen : rx.phase = .len
    · simp only [if_pos hlen]
      exact recvLen_alike halloc halloc' k s k' s' h
    · simp only [if_neg hlen]
      exact recvBody_alike h

theorem recvResume_alike (halloc : Sized alloc) (halloc' : Sized alloc') (k : K) (s : S)
    (k' : K') (s' : S') {rx rx' : RecvBuf} (h : ReceivedAlike rx rx') (point : RecvAwait)
    (res : ReadResult) :
    StopAlike (recvResume alloc w fmt k s rx point res).2
      (recvResume alloc' w fmt k' s' rx' point res).2 := by
  cases res with
  | err e => exact ⟨h, rfl⟩
  | ok bs =>
      simp only [recvResume]
      by_cases hz : bs.length = 0
      · rw [if_pos hz, if_pos hz]
        exact ⟨h, rfl⟩
      · rw [if_neg hz, if_neg hz]
        cases point with
        | len =>
            refine recvLen_alike halloc halloc' k s k' s' ?_
            refine ⟨h.phase, ?_, ?_, h.bodyFilled, h.length, h.received⟩
            · rw [h.lenBuf, h.lenFilled]
            · rw [h.lenFilled]
        | body =>
            refine recvBody_alike ⟨h.phase, h.lenBuf, h.lenFilled, ?_, ?_, ?_⟩
            · rw [h.bodyFilled]
            · rw [length_overwrite, length_overwrite, h.length]
            · rw [h.bodyFilled]
              exact take_overwrite_congr h.length h.received

end Closures

/-! ## The transport -/

theorem sized_allocBody : Sized allocBody := by
  intro k pool n
  cases k with
  | recv => exact List.length_replicate
  | recvPooled =>
      show (pool.take.1.resize n 0).length = n
      rw [Buf.resize, List.length_append, List.length_take, List.length_replicate]
      omega

/-- The transport with the pool and the one without. -/
structure SameTransport (r : Receiver RecvMethod BufferPool) (p : Receiver Unit Unit) :
    Prop where
  rx : ReceivedAlike r.rx p.rx
  live : p.live = r.live.map fun fut => ⟨(), fut.point, fut.room⟩
  results : p.results = r.results
  panicked : p.panicked = r.panicked

theorem sameTransport_settle {r : Receiver RecvMethod BufferPool} {p : Receiver Unit Unit}
    (h : SameTransport r p) (k : RecvMethod) {a : BufferPool × RecvBuf × RecvPoll}
    {b : Unit × RecvBuf × RecvPoll} (hab : StopAlike a.2 b.2) :
    SameTransport (r.settle k a) (p.settle () b) := by
  obtain ⟨s, rx, poll⟩ := a
  obtain ⟨s', rx', poll'⟩ := b
  obtain ⟨hrx, hpoll⟩ := hab
  cases hpoll
  cases poll with
  | pending point room => exact ⟨hrx, rfl, h.results, h.panicked⟩
  | ready res => exact ⟨hrx, rfl, by simp only [Receiver.settle, h.results], h.panicked⟩
  | panicked => exact ⟨hrx, rfl, h.results, rfl⟩

theorem SameTransport.step {r r' : Receiver RecvMethod BufferPool} {p : Receiver Unit Unit}
    (h : SameTransport r p) {a : RecvAct RecvMethod}
    (hstep : r.step allocBody w fmt a = some r') :
    ∃ p', p.step vecZeroed w fmt (recvOnly a) = some p' ∧ SameTransport r' p' := by
  rcases receiver_moved hstep with ⟨k, rfl, hlive, halive, rfl⟩ |
    ⟨res, fut, rfl, hlive, hfits, rfl⟩ | ⟨fut, rfl, hlive, rfl⟩
  · have hplive : p.live = none := by
      rw [h.live, hlive]
      rfl
    simp only [recvOnly, Receiver.step, hplive, h.panicked, halive]
    exact ⟨_, rfl, sameTransport_settle h k
      (recvInner_alike sized_allocBody sized_vecZeroed k _ () _ h.rx)⟩
  · have hplive : p.live = some ⟨(), fut.point, fut.room⟩ := by
      rw [h.live, hlive]
      rfl
    simp only [recvOnly, Receiver.step, hplive, if_pos hfits]
    exact ⟨_, rfl, sameTransport_settle h fut.method
      (recvResume_alike sized_allocBody sized_vecZeroed fut.method _ () _ h.rx fut.point res)⟩
  · have hplive : p.live = some ⟨(), fut.point, fut.room⟩ := by
      rw [h.live, hlive]
      rfl
    refine ⟨{ p with live := none }, ?_, ⟨h.rx, rfl, h.results, h.panicked⟩⟩
    simp only [recvOnly, Receiver.step, hplive]

/-- To recycle touches the pool alone. -/
theorem poolStep_recycle {r r' : Receiver RecvMethod BufferPool} {msg : List UInt8 × Buf}
    (hstep : poolStep w fmt r (.recycle msg) = some r') :
    r' = { r with captured := r.captured.recycle msg } := by
  rw [poolStep] at hstep
  split at hstep
  · cases hstep
  · cases hstep
    rfl

/-- Every run with the pool is a run without it, with the same results. -/
theorem run_forgetPool {r r' : Receiver RecvMethod BufferPool} {acts : List PoolAct}
    (hrun : run (poolStep w fmt) r acts = some r') :
    ∃ p', run (Receiver.step vecZeroed w fmt) (forgetPool r) (acts.filterMap withoutPool) =
      some p' ∧ SameTransport r' p' := by
  refine run_simulation (R := SameTransport) ?_ ⟨receivedAlike_refl r.rx, rfl, rfl, rfl⟩ hrun
  intro s p a s' h hstep
  cases a with
  | transport a => exact h.step hstep
  | recycle msg =>
      rw [poolStep_recycle hstep]
      exact ⟨h.rx, h.live, h.results, h.panicked⟩

/-! ## The bounds of the pool -/

section Caps

variable {maxBufs maxBufBytes : Nat} {pool : BufferPool}

theorem withinCaps_withCapacity (maxBufs maxBufBytes : Nat) :
    WithinCaps maxBufs maxBufBytes (.withCapacity maxBufs maxBufBytes) :=
  ⟨rfl, rfl, Nat.zero_le _, fun _ h => absurd h List.not_mem_nil⟩

theorem withinCaps_recycle (h : WithinCaps maxBufs maxBufBytes pool)
    (msg : List UInt8 × Buf) : WithinCaps maxBufs maxBufBytes (pool.recycle msg) := by
  rw [BufferPool.recycle]
  split
  · next hroom =>
      obtain ⟨hcount, hsize⟩ := hroom
      refine ⟨h.maxBufs_eq, h.maxBufBytes_eq, ?_, ?_⟩
      · rw [h.maxBufs_eq] at hcount
        rw [List.length_append]
        exact hcount
      · rw [h.maxBufBytes_eq] at hsize
        exact forall_mem_concat h.size hsize
  · exact h

theorem withinCaps_allocBody (h : WithinCaps maxBufs maxBufBytes pool) (k : RecvMethod)
    (len : Nat) : WithinCaps maxBufs maxBufBytes (allocBody k pool len).2 := by
  cases k with
  | recv => exact h
  | recvPooled =>
      refine ⟨h.maxBufs_eq, h.maxBufBytes_eq, ?_, ?_⟩
      · show pool.bufs.dropLast.length ≤ maxBufs
        rw [List.length_dropLast]
        exact Nat.le_trans (Nat.sub_le _ _) h.count
      · intro buf hbuf
        exact h.size buf (List.dropLast_subset pool.bufs hbuf)

end Caps

/-! What the closure captured changes by the closure and by nothing else. -/

section Captured

variable {K S : Type} {alloc : K → S → Nat → List UInt8 × S} {P : S → Prop}

theorem captured_recvLen (halloc : ∀ k s len, P s → P (alloc k s len).2) (k : K) {s : S}
    (hs : P s) (rx : RecvBuf) : P (recvLen alloc w fmt k s rx).1 := by
  rw [recvLen]
  split
  · split <;> exact hs
  · split
    · exact hs
    · exact halloc k s _ hs

theorem captured_recvInner (halloc : ∀ k s len, P s → P (alloc k s len).2) (k : K) {s : S}
    (hs : P s) (rx : RecvBuf) : P (recvInner alloc w fmt k s rx).1 := by
  have hphase : ∀ rx : RecvBuf,
      P (if rx.phase = .len then recvLen alloc w fmt k s rx else (s, recvBody rx)).1 := by
    intro rx
    split
    · exact captured_recvLen halloc k hs rx
    · exact hs
  exact hphase _

theorem captured_recvResume (halloc : ∀ k s len, P s → P (alloc k s len).2) (k : K) {s : S}
    (hs : P s) (rx : RecvBuf) (point : RecvAwait) (res : ReadResult) :
    P (recvResume alloc w fmt k s rx point res).1 := by
  cases res with
  | err e => exact hs
  | ok bs =>
      simp only [recvResume]
      split
      · exact hs
      · cases point with
        | len => exact captured_recvLen halloc k hs _
        | body => exact hs

theorem captured_settle (r : Receiver K S) (k : K) (a : S × RecvBuf × RecvPoll) :
    (r.settle k a).captured = a.1 := by
  obtain ⟨s, rx, poll⟩ := a
  cases poll <;> rfl

theorem captured_step (halloc : ∀ k s len, P s → P (alloc k s len).2)
    {r r' : Receiver K S} {a : RecvAct K} (hr : P r.captured)
    (hstep : r.step alloc w fmt a = some r') : P r'.captured := by
  rcases receiver_moved hstep with ⟨k, -, -, -, rfl⟩ | ⟨res, fut, -, -, -, rfl⟩ |
    ⟨fut, -, -, rfl⟩
  · rw [captured_settle]
    exact captured_recvInner halloc k hr r.rx
  · rw [captured_settle]
    exact captured_recvResume halloc _ hr r.rx _ res
  · exact hr

end Captured

theorem withinCaps_run {maxBufs maxBufBytes : Nat} {r r' : Receiver RecvMethod BufferPool}
    {acts : List PoolAct} (hr : WithinCaps maxBufs maxBufBytes r.captured)
    (hrun : run (poolStep w fmt) r acts = some r') :
    WithinCaps maxBufs maxBufBytes r'.captured := by
  refine run_invariant (I := fun r => WithinCaps maxBufs maxBufBytes r.captured) hr ?_ hrun
  intro u a v hu hstep
  cases a with
  | transport a =>
      exact captured_step (P := WithinCaps maxBufs maxBufBytes)
        (fun k _ len hpool => withinCaps_allocBody hpool k len) hu hstep
  | recycle msg =>
      rw [poolStep_recycle hstep]
      exact withinCaps_recycle hu msg

/-- From any transport and any pool, `recv` and `recv_pooled` in any mix return
what `recv` alone would have returned, and a pool keeps to the bounds it was
made with. -/
theorem recvPooled_interchangeable (w : PointerWidth) (fmt : FrameFormat)
    (r r' : Receiver RecvMethod BufferPool) (acts : List PoolAct)
    (hrun : run (poolStep w fmt) r acts = some r') :
    (∃ p', run (Receiver.step vecZeroed w fmt) (forgetPool r) (acts.filterMap withoutPool) =
        some p' ∧ p'.results = r'.results ∧ p'.panicked = r'.panicked) ∧
      ∀ maxBufs maxBufBytes, r.captured = .withCapacity maxBufs maxBufBytes →
        WithinCaps maxBufs maxBufBytes r'.captured := by
  constructor
  · obtain ⟨p', hp', hsame⟩ := run_forgetPool hrun
    exact ⟨p', hp', hsame.results, hsame.panicked⟩
  · intro maxBufs maxBufBytes hmade
    refine withinCaps_run ?_ hrun
    rw [hmade]
    exact withinCaps_withCapacity maxBufs maxBufBytes

/-- A pool with one buffer of old bytes; the pooled call that takes it is dropped
inside the body and a plain one finishes the message, which is then recycled. -/
theorem recvPooled_interchangeable_dirty :
    let start : Receiver RecvMethod BufferPool :=
      .fresh ⟨[⟨[255, 255, 255], 4, Nat.le_add_right 3 1⟩], 2, 4⟩
    let acts : List PoolAct :=
      [.transport (.call .recvPooled), .transport (.read (.ok [0, 0, 0, 0, 0, 0, 0, 2])),
        .transport (.read (.ok [7])), .transport .drop, .transport (.call .recv),
        .transport (.read (.ok [8])), .recycle ([], ⟨[7, 8], 4, Nat.le_add_right 2 2⟩)]
    ∃ r', run (poolStep .w64 .tcp) start acts = some r' ∧
      r'.results = [.ok ⟨[], [7, 8]⟩] ∧ r'.captured.bufs.length = 1 ∧
      ∃ p', run (Receiver.step vecZeroed .w64 .tcp) (forgetPool start)
          (acts.filterMap withoutPool) = some p' ∧ p'.results = r'.results := by
  intro start acts
  have hval : (run (poolStep .w64 .tcp) start acts).map
      (fun r => (r.results, r.captured.bufs.length)) = some ([.ok ⟨[], [7, 8]⟩], 1) := by
    decide
  obtain ⟨r', hrun, hr'⟩ := Option.map_eq_some_iff.mp hval
  obtain ⟨hres, hlen⟩ := Prod.mk.inj hr'
  obtain ⟨⟨p', hp', hsame, -⟩, -⟩ := recvPooled_interchangeable .w64 .tcp start r' acts hrun
  exact ⟨r', hrun, hres, hlen, p', hp', hsame⟩

end NngCore.Proofs
