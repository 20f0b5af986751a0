import SlotNet.Fault
import SlotNet.Binary

/-!
# Virtual time

Times and durations are whole nanoseconds below `Time.limit`; a sum beyond it is a fault.
Seconds given as doubles are rounded to the nearest nanosecond, a half to the even one.
-/

namespace SlotNet

/-- A time or a duration in nanoseconds. -/
abbrev Time := Nat

namespace Time

def second : Nat := 1000000000

/-- Times hold fewer than `2 ^ 64` seconds. -/
def limit : Nat := Count.limit * second

def greatest : Time := limit - 1

/-- A time further on by a duration. -/
def add (t d : Time) : Except Fault Time :=
  if t + d < limit then .ok (t + d) else .error .timeOverflow

/-- A duration `n` times over. -/
def scale (d : Time) (n : Nat) : Except Fault Time :=
  if d * n < limit then .ok (d * n) else .error .timeOverflow

def ofMicros (n : Nat) : Time := n * 1000

def ofMillis (n : Nat) : Time := n * 1000000

/-- Whole nanoseconds as a 64-bit number: the low bits. -/
def low64 (t : Time) : Nat := t % Count.limit

/-- The time nearest to a number of seconds, a half going to the even nanosecond. Numbers below
zero, infinite ones and those of `2 ^ 64` seconds or more are no time. -/
def ofSeconds? (secs : Float) : Option Time :=
  match Binary.ofFloat secs with
  | .nan | .infinite _ => none
  | .finite negative m q =>
    let (num, den) := Binary.ratio m q
    if (negative ∧ m ≠ 0) ∨ Count.limit * den ≤ num then none
    else some (Binary.roundHalfEven (num * second) den)

/-- Seconds as a double: whole seconds plus the rest. -/
def seconds (t : Time) : Float :=
  (t / second).toUInt64.toFloat + (t % second).toUInt64.toFloat / 1e9

theorem add_eq_ok {t d u : Time} (h : add t d = .ok u) : u = t + d ∧ u < limit := by
  unfold add at h
  split at h
  · cases h; exact ⟨rfl, by assumption⟩
  · cases h

end Time

end SlotNet
