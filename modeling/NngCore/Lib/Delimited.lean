import Mathlib.Data.List.Infix
import Mathlib.Data.List.Induction

/-!
# Streams of length-delimited items

A framing reads a header of fixed length and learns from it, and from nothing
else, how many symbols of payload follow. That is enough to make every stream
parse in exactly one way: an item cannot be a proper prefix of another, so two
ways of cutting the same stream agree item for item, and the cut of a prefix
is a prefix of the cut.

`Item` carries its two length facts as fields, so an ill-delimited item cannot
be written down. `Partial` is what is left when no further item can be cut
off: the stream ends inside a header or inside a payload.
-/

namespace NngCore.Lib

/-- A framing: how long a header is, and what payload length it announces. -/
structure Framing (α : Type) where
  headerLen : Nat
  headerLen_pos : 0 < headerLen
  payloadLen : List α → Nat

namespace Framing

variable {α : Type} {F : Framing α}

/-- A complete item: a whole header and the whole payload it announces. -/
structure Item (F : Framing α) where
  header : List α
  payload : List α
  header_len : header.length = F.headerLen
  payload_len : payload.length = F.payloadLen header

/-- The symbols an item occupies in the stream. -/
def Item.symbols (it : F.Item) : List α := it.header ++ it.payload

/-- The stream a sequence of items makes. -/
def encode (F : Framing α) (items : List F.Item) : List α :=
  items.flatMap Item.symbols

/-- No complete item sits at the front of `p`. -/
def Partial (F : Framing α) (p : List α) : Prop :=
  ∀ it : F.Item, ¬ it.symbols <+: p

theorem Item.ext' {x y : F.Item} (hh : x.header = y.header)
    (hp : x.payload = y.payload) : x = y := by
  cases x
  cases y
  cases hh
  cases hp
  rfl

theorem Item.length_symbols (it : F.Item) :
    it.symbols.length = F.headerLen + F.payloadLen it.header := by
  rw [symbols, List.length_append, it.header_len, it.payload_len]

theorem Item.symbols_ne_nil (it : F.Item) : it.symbols ≠ [] := by
  have hpos := F.headerLen_pos
  have hlen := it.length_symbols
  intro h
  rw [h] at hlen
  simp only [List.length_nil] at hlen
  omega

theorem Item.header_eq_take {it : F.Item} {l : List α} (h : it.symbols <+: l) :
    it.header = l.take F.headerLen := by
  obtain ⟨t, rfl⟩ := h
  rw [symbols, List.append_assoc, ← it.header_len, List.take_left]

/-- Items are told apart by any stream they both start: the headers are the
same symbols, so the payloads are as long as each other. -/
theorem Item.eq_of_prefix {x y : F.Item} {l : List α} (hx : x.symbols <+: l)
    (hy : y.symbols <+: l) : x = y := by
  have hhead : x.header = y.header := by
    rw [header_eq_take hx, header_eq_take hy]
  have hlen : x.symbols.length = y.symbols.length := by
    rw [x.length_symbols, y.length_symbols, hhead]
  have hsym : x.symbols = y.symbols :=
    (List.prefix_of_prefix_length_le hx hy (Nat.le_of_eq hlen)).eq_of_length hlen
  refine Item.ext' hhead ?_
  rw [symbols, symbols, hhead] at hsym
  exact List.append_cancel_left hsym

@[simp] theorem encode_nil : F.encode [] = [] := rfl

@[simp] theorem encode_cons (x : F.Item) (xs : List F.Item) :
    F.encode (x :: xs) = x.symbols ++ F.encode xs := List.flatMap_cons

@[simp] theorem encode_append (xs ys : List F.Item) :
    F.encode (xs ++ ys) = F.encode xs ++ F.encode ys := List.flatMap_append

theorem encode_singleton (x : F.Item) : F.encode [x] = x.symbols := by
  rw [encode_cons, encode_nil, List.append_nil]

theorem encode_concat (xs : List F.Item) (x : F.Item) :
    F.encode (xs ++ [x]) = F.encode xs ++ x.symbols := by
  rw [encode_append, encode_singleton]

theorem length_le_encode (xs : List F.Item) : xs.length ≤ (F.encode xs).length := by
  induction xs with
  | nil => exact Nat.le_refl 0
  | cons x xs ih =>
      have hpos := F.headerLen_pos
      rw [encode_cons, List.length_append, List.length_cons, x.length_symbols]
      omega

theorem partial_nil : F.Partial [] := by
  intro it h
  exact it.symbols_ne_nil (List.prefix_nil.mp h)

theorem partial_of_length_lt {p : List α} (h : p.length < F.headerLen) :
    F.Partial p := by
  intro it hp
  have hle := hp.length_le
  rw [it.length_symbols] at hle
  omega

theorem partial_of_payload_lt {hdr p : List α} (hh : hdr.length = F.headerLen)
    (h : p.length < F.payloadLen hdr) : F.Partial (hdr ++ p) := by
  intro it hp
  have hle := hp.length_le
  have heq : it.header = hdr := by
    rw [Item.header_eq_take hp, ← hh, List.take_left]
  rw [it.length_symbols, List.length_append, hh, heq] at hle
  omega

/-- The items of a prefix come first among the items of the stream, provided
the stream's own remainder holds no further item. -/
theorem prefix_of_encode_prefix {xs ys : List F.Item} {q : List α}
    (hq : F.Partial q) (h : F.encode xs <+: F.encode ys ++ q) : xs <+: ys := by
  induction xs generalizing ys with
  | nil => exact List.nil_prefix
  | cons x xs ih =>
      rw [encode_cons] at h
      have hx : x.symbols <+: F.encode ys ++ q := (List.prefix_append _ _).trans h
      cases ys with
      | nil => exact absurd hx (hq x)
      | cons y ys =>
          have hy : y.symbols <+: F.encode (y :: ys) ++ q := by
            rw [encode_cons, List.append_assoc]
            exact List.prefix_append _ _
          cases Item.eq_of_prefix hx hy
          rw [encode_cons, List.append_assoc, List.prefix_append_right_inj] at h
          exact List.cons_prefix_cons.mpr ⟨rfl, ih h⟩

/-- A stream parses in one way. -/
theorem parse_unique {xs ys : List F.Item} {p q : List α} (hp : F.Partial p)
    (hq : F.Partial q) (h : F.encode xs ++ p = F.encode ys ++ q) :
    xs = ys ∧ p = q := by
  have hxy : xs <+: ys :=
    prefix_of_encode_prefix hq ((List.prefix_append _ p).trans (h ▸ List.prefix_rfl))
  have hyx : ys <+: xs :=
    prefix_of_encode_prefix hp ((List.prefix_append _ q).trans (h ▸ List.prefix_rfl))
  have heq : xs = ys := hxy.eq_of_length (Nat.le_antisymm hxy.length_le hyx.length_le)
  rw [heq] at h
  exact ⟨heq, List.append_cancel_left h⟩

/-- A prefix of a stream of whole items that leaves nothing over has cut all
of them. -/
theorem eq_of_encode_eq {xs ys : List F.Item} {p : List α} (hp : F.Partial p)
    (h : F.encode xs ++ p = F.encode ys) : xs = ys ∧ p = [] :=
  parse_unique hp partial_nil (by rw [h, List.append_nil])

/-- Every stream parses. -/
theorem exists_parse (l : List α) :
    ∃ (xs : List F.Item) (p : List α), l = F.encode xs ++ p ∧ F.Partial p := by
  induction hn : l.length using Nat.strong_induction_on generalizing l with
  | _ n ih =>
      by_cases hfirst : ∃ it : F.Item, it.symbols <+: l
      · obtain ⟨it, t, rfl⟩ := hfirst
        have hpos := F.headerLen_pos
        have hlt : t.length < n := by
          rw [← hn, List.length_append, it.length_symbols]
          omega
        obtain ⟨xs, p, ht, hp⟩ := ih t.length hlt t rfl
        exact ⟨it :: xs, p, by rw [encode_cons, List.append_assoc, ← ht], hp⟩
      · exact ⟨[], l, rfl, not_exists.mp hfirst⟩

end Framing

end NngCore.Lib
