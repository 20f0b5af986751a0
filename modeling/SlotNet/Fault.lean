/-!
# Faults and bounded counts

A run counts bytes and packets in 64 bits. An operation whose result has no place there gives a
`Fault` instead of a wrong number, and so does every step that needs it. The bytes of a table are
bounded too; below that bound there is always room for it.
-/

namespace SlotNet

/-- Why a step has no result. -/
inductive Fault where
  /-- A count would reach `2 ^ 64` or fall below zero. -/
  | countOverflow
  /-- A time would pass the last one that can be told. -/
  | timeOverflow
  /-- The bits of a slot, scaled to nanoseconds, would reach `2 ^ 128`. -/
  | capacityOverflow
  /-- A number was to be drawn from a range without end. -/
  | unboundedRange
  /-- The bytes of a table would reach `2 ^ 63`. -/
  | tableOverflow
  deriving DecidableEq, Repr

/-! ## Results -/

namespace Fault

variable {ε α β : Type}

theorem bind_eq_ok {x : Except ε α} {f : α → Except ε β} {b : β} :
    x >>= f = .ok b ↔ ∃ a, x = .ok a ∧ f a = .ok b := by
  constructor
  · intro h
    cases x with
    | error e => cases h
    | ok a => exact ⟨a, rfl, h⟩
  · rintro ⟨a, rfl, h⟩
    exact h

theorem bind_eq_error {x : Except ε α} {f : α → Except ε β} {e : ε} :
    x >>= f = .error e ↔ x = .error e ∨ ∃ a, x = .ok a ∧ f a = .error e := by
  cases x with
  | error e' =>
    refine ⟨fun h => .inl ?_, ?_⟩
    · cases h
      rfl
    · rintro (h | ⟨a, h, -⟩)
      · cases h
        rfl
      · cases h
  | ok a =>
    refine ⟨fun h => .inr ⟨a, rfl, h⟩, ?_⟩
    rintro (h | ⟨a', h, h'⟩)
    · cases h
    · cases h
      exact h'

theorem map_eq_ok {x : Except ε α} {f : α → β} {b : β} :
    x.map f = .ok b ↔ ∃ a, x = .ok a ∧ f a = b := by
  constructor
  · intro h
    cases x with
    | error e => cases h
    | ok a => cases h; exact ⟨a, rfl, rfl⟩
  · rintro ⟨a, rfl, rfl⟩
    rfl

theorem toOption_eq_some {x : Except ε α} {a : α} : x.toOption = some a ↔ x = .ok a := by
  cases x <;> simp [Except.toOption]

theorem toOption_map_eq_some {x : Except ε α} {f : α → β} {b : β} :
    x.toOption.map f = some b ↔ ∃ a, x = .ok a ∧ f a = b := by
  cases x <;> simp [Except.toOption]

end Fault

/-! ## Counts -/

namespace Count

/-- Counts lie below `2 ^ 64`. -/
def limit : Nat := 18446744073709551616

def greatest : Nat := limit - 1

/-- The sum of two counts, if it is a count. -/
def add (a b : Nat) : Except Fault Nat :=
  if a + b < limit then .ok (a + b) else .error .countOverflow

def sub (a b : Nat) : Except Fault Nat :=
  if b ≤ a then .ok (a - b) else .error .countOverflow

def mul (a b : Nat) : Except Fault Nat :=
  if a * b < limit then .ok (a * b) else .error .countOverflow

theorem add_eq_ok {a b c : Nat} (h : add a b = .ok c) : c = a + b ∧ c < limit := by
  unfold add at h
  split at h
  · cases h; exact ⟨rfl, by assumption⟩
  · cases h

theorem mul_eq_ok {a b c : Nat} (h : mul a b = .ok c) : c = a * b ∧ c < limit := by
  unfold mul at h
  split at h
  · cases h; exact ⟨rfl, by assumption⟩
  · cases h

end Count

/-! ## Tables -/

namespace Memory

/-- The bytes of a table lie below `2 ^ 63`. -/
def limit : Nat := 9223372036854775808

/-- Makes room for a table with so many entries of some bytes each. -/
def allot (entries bytes : Nat) : Except Fault Unit :=
  if entries * bytes < limit then .ok () else .error .tableOverflow

theorem allot_eq_ok_iff {entries bytes : Nat} :
    allot entries bytes = .ok () ↔ entries * bytes < limit := by
  simp [allot]

end Memory

end SlotNet
