import Mathlib.Data.List.Basic

/-!
# A bounded channel with counted senders

The queue of an asynchronous multi-producer channel: it holds at most
`capacity` items, the sending side is any number of handles, and the receiving
side is one. A receive finds the channel closed when nothing is queued and no
sending handle is left; a send fails when the receiver is gone and waits while
there is no room. Handles are counted, not named, so who keeps one is a matter
of the system that uses the channel.
-/

namespace NngCore.Lib

variable {α β : Type}

/-- What one poll of a future gives. -/
inductive Poll (α : Type) where
  | pending
  | ready (a : α)
  deriving DecidableEq, Repr

namespace Poll

def map (f : α → β) : Poll α → Poll β
  | pending => pending
  | ready a => ready (f a)

end Poll

structure Channel (α : Type) where
  capacity : Nat
  items : List α
  senders : Nat
  receiver : Bool
  deriving DecidableEq

namespace Channel

/-- A channel with one handle on either side. A capacity of zero, or one over
what the implementation can count, is refused. -/
def new (limit capacity : Nat) : Option (Channel α) :=
  if capacity = 0 ∨ limit < capacity then none else some ⟨capacity, [], 1, true⟩

def cloneSender (c : Channel α) : Channel α := { c with senders := c.senders + 1 }

def dropSender (c : Channel α) : Channel α := { c with senders := c.senders - 1 }

def dropReceiver (c : Channel α) : Channel α := { c with items := [], receiver := false }

/-- `true` and the item queued, `false` if nobody will receive it, nothing
while there is no room. -/
def send (c : Channel α) (a : α) : Option (Bool × Channel α) :=
  if !c.receiver then some (false, c)
  else if c.items.length < c.capacity then some (true, { c with items := c.items ++ [a] })
  else none

def pollRecv (c : Channel α) : Poll (Option α) × Channel α :=
  match c.items with
  | a :: as => (.ready (some a), { c with items := as })
  | [] => if c.senders = 0 then (.ready none, c) else (.pending, c)

theorem send_gone {c : Channel α} (h : c.receiver = false) (a : α) :
    c.send a = some (false, c) := by
  rw [send, h]
  rfl

theorem send_open {c : Channel α} (h : c.receiver = true) (a : α) :
    c.send a = if c.items.length < c.capacity
      then some (true, { c with items := c.items ++ [a] }) else none := by
  rw [send, if_neg (by simp [h])]

theorem pollRecv_cons {c : Channel α} {a : α} {as : List α} (h : c.items = a :: as) :
    c.pollRecv = (.ready (some a), { c with items := as }) := by
  rw [pollRecv, h]

theorem pollRecv_open {c : Channel α} (h : c.items = []) (hs : c.senders ≠ 0) :
    c.pollRecv = (.pending, c) := by
  rw [pollRecv, h]
  exact if_neg hs

theorem new_eq_some {limit capacity : Nat} {c : Channel α}
    (h : new limit capacity = some c) : 0 < capacity ∧ c = ⟨capacity, [], 1, true⟩ := by
  rw [new] at h
  split at h
  · cases h
  · rename_i hcap
    cases h
    exact ⟨Nat.pos_of_ne_zero fun h0 => hcap (.inl h0), rfl⟩

end Channel

end NngCore.Lib
