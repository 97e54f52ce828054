import Mathlib.Data.List.Nodup

/-!
# A lock that is handed on in order

Those who want the lock stand in a line; the one at its front holds it. Who
releases it hands it to the next, and who gives up leaves the line, wherever it
stands. The lock is free only if nobody is in line: that is a field, so a lock
that nobody holds and somebody waits for cannot be written down.
-/

namespace NngCore.Lib

/-- The holder, and those who wait, the first to be served first. -/
structure FairLock (ι : Type) where
  holder : Option ι
  queue : List ι
  handed : holder = none → queue = []

namespace FairLock

variable {ι : Type} [DecidableEq ι]

def free : FairLock ι := ⟨none, [], fun _ => rfl⟩

/-- The whole line, the holder at its front. -/
def line (l : FairLock ι) : List ι := l.holder.toList ++ l.queue

/-- `i` joins the line. -/
def join (l : FairLock ι) (i : ι) : FairLock ι :=
  match l with
  | ⟨none, queue, h⟩ => ⟨some i, queue, fun _ => h rfl⟩
  | ⟨some j, queue, _⟩ => ⟨some j, queue ++ [i], nofun⟩

/-- The line `is`, as a lock. -/
def ofLine : List ι → FairLock ι
  | [] => free
  | i :: is => ⟨some i, is, nofun⟩

/-- `i` leaves the line; if it held the lock, the next one does. -/
def leave (l : FairLock ι) (i : ι) : FairLock ι := ofLine (l.line.filter (· ≠ i))

omit [DecidableEq ι] in
@[simp] theorem line_ofLine (is : List ι) : (ofLine is).line = is := by
  cases is <;> rfl

omit [DecidableEq ι] in
@[simp] theorem line_join (l : FairLock ι) (i : ι) : (l.join i).line = l.line ++ [i] := by
  obtain ⟨holder, queue, h⟩ := l
  cases holder with
  | none =>
      obtain rfl := h rfl
      rfl
  | some j => rfl

@[simp] theorem line_leave (l : FairLock ι) (i : ι) :
    (l.leave i).line = l.line.filter (· ≠ i) := line_ofLine _

omit [DecidableEq ι] in
/-- The lock is held by the first in line. -/
theorem holder_eq_head? (l : FairLock ι) : l.holder = l.line.head? := by
  obtain ⟨holder, queue, h⟩ := l
  cases holder with
  | none =>
      obtain rfl := h rfl
      rfl
  | some j => rfl

end FairLock

end NngCore.Lib
