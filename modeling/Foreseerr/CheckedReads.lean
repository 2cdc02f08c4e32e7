import Mathlib.Algebra.Group.Nat.Defs
import Mathlib.Data.List.Basic
import Mathlib.Order.Basic

/-!
# Checked reads of a slice

A reader of a byte slice that moves by offsets ends in one of three ways: with a value,
without one because the slice is too short, or with a fault, which is a read outside the
slice or a sum of offsets beyond the machine's word. Checked reads never fault; whether
the sums do depends on the offsets a reader comes to. `Ends` says that a reader does not
fault and what holds of its value, and goes through a reader step by step (`Ends.bind`).

What a slice holds from an offset on is said of its bytes with that many dropped: a reader
of an encoded value finds it there and leaves what comes after (`Slice.get_of_drop`,
`Slice.range_of_drop`, `drop_add_of_append`).
-/

namespace Foreseerr

namespace CheckedReads

universe u

/-- How a reader ends without a value. -/
inductive Stop
  /-- The slice ends first, or what it holds is refused. -/
  | absent
  /-- A read outside the slice, or an offset beyond the machine's word. -/
  | fault
deriving DecidableEq, Repr

/-- A reader's result. -/
abbrev Read (α : Type*) := Except Stop α

/-- A slice of bytes: no longer than an object in memory can be. -/
structure Slice where
  bytes : List UInt8
  fits : bytes.length < 2 ^ 63

/-- The sum of two offsets, of 64 bits. -/
def add (a b : ℕ) : Read ℕ :=
  if a + b < 2 ^ 64 then .ok (a + b) else .error .fault

namespace Slice

/-- The byte at an offset, unchecked. -/
def fetch (s : Slice) (pos : ℕ) : Read UInt8 :=
  match s.bytes[pos]? with
  | some byte => .ok byte
  | none => .error .fault

/-- The bytes between two offsets, unchecked. -/
def fetchRange (s : Slice) (start stop : ℕ) : Read (List UInt8) :=
  if stop ≤ s.bytes.length then .ok ((s.bytes.drop start).take (stop - start))
  else .error .fault

/-- The byte at an offset of the slice. -/
def get (s : Slice) (pos : ℕ) : Read UInt8 :=
  if pos < s.bytes.length then s.fetch pos else .error .absent

/-- The bytes between two offsets of the slice. -/
def range (s : Slice) (start stop : ℕ) : Read (List UInt8) :=
  if start ≤ stop ∧ stop ≤ s.bytes.length then s.fetchRange start stop else .error .absent

end Slice

/-! ## What is found -/

theorem add_of_lt {a b : ℕ} (h : a + b < 2 ^ 64) : add a b = .ok (a + b) :=
  if_pos h

theorem eq_add_of_ok {a b c : ℕ} (h : add a b = .ok c) : c = a + b := by
  rw [add] at h
  split at h
  · exact (Except.ok.inj h).symm
  · cases h

/-- What stands after an encoded value. -/
theorem drop_add_of_append {bytes enc rest : List UInt8} {pos : ℕ}
    (h : bytes.drop pos = enc ++ rest) : bytes.drop (pos + enc.length) = rest := by
  rw [← List.drop_drop, h, List.drop_left]

/-- An encoded value that is found lies inside the slice. -/
theorem length_le_of_drop {bytes enc rest : List UInt8} {pos : ℕ}
    (h : bytes.drop pos = enc ++ rest) (hne : enc ≠ []) : pos + enc.length ≤ bytes.length := by
  have hlen := congrArg List.length h
  have hpos : 0 < enc.length := List.length_pos_iff.mpr hne
  rw [List.length_drop, List.length_append] at hlen
  omega

namespace Slice

variable {s : Slice} {pos : ℕ}

/-- One byte of an encoded value. -/
theorem get_add_of_drop {enc rest : List UInt8} {k : ℕ} {byte : UInt8}
    (h : s.bytes.drop pos = enc ++ rest) (hk : enc[k]? = some byte) :
    s.get (pos + k) = .ok byte := by
  have hklt : k < enc.length := (List.getElem?_eq_some_iff.mp hk).1
  have hle := length_le_of_drop h (List.ne_nil_of_length_pos (by omega))
  have hat : s.bytes[pos + k]? = some byte := by
    rw [← List.getElem?_drop, h, List.getElem?_append_left hklt, hk]
  rw [get, if_pos (by omega), fetch, hat]

theorem getElem?_of_get {byte : UInt8} (h : s.get pos = .ok byte) :
    s.bytes[pos]? = some byte := by
  rw [get, fetch] at h
  split at h
  · split at h
    · next hat =>
      cases h
      exact hat
    · cases h
  · cases h

theorem get_of_drop {byte : UInt8} {rest : List UInt8} (h : s.bytes.drop pos = byte :: rest) :
    s.get pos = .ok byte :=
  @get_add_of_drop s pos [byte] rest 0 byte h rfl

theorem range_of_drop {enc rest : List UInt8} (h : s.bytes.drop pos = enc ++ rest)
    (hle : pos + enc.length ≤ s.bytes.length) : s.range pos (pos + enc.length) = .ok enc := by
  rw [range, if_pos ⟨Nat.le_add_right _ _, hle⟩, fetchRange, if_pos hle, Nat.add_sub_cancel_left,
    h, List.take_left]

end Slice

/-! ## Readers that do not fault -/

/-- A reader does not fault, and its value is as `P` says. -/
structure Ends {α : Type*} (x : Read α) (P : α → Prop) : Prop where
  value : ∀ a, x = .ok a → P a
  noFault : x ≠ .error .fault

namespace Ends

variable {α β : Type u} {x : Read α} {f : α → Read β} {P : α → Prop} {Q : β → Prop}

theorem ok {a : α} (h : P a) : Ends (.ok a) P := by
  refine ⟨fun b hb => ?_, nofun⟩
  cases hb
  exact h

theorem absent : Ends (.error .absent : Read α) P :=
  ⟨nofun, nofun⟩

theorem mono {P' : α → Prop} (h : Ends x P) (hle : ∀ a, P a → P' a) : Ends x P' :=
  ⟨fun a ha => hle a (h.value a ha), h.noFault⟩

/-- One step after another. -/
theorem bind (hx : Ends x P) (hf : ∀ a, P a → Ends (f a) Q) : Ends (x >>= f) Q := by
  cases x with
  | ok a => exact hf a (hx.value a rfl)
  | error stop =>
    refine ⟨nofun, fun h => hx.noFault ?_⟩
    cases h
    rfl

theorem add {a b : ℕ} (h : a + b < 2 ^ 64) : Ends (CheckedReads.add a b) (· = a + b) := by
  rw [add_of_lt h]
  exact ok rfl

/-- A checked read finds only what is inside. -/
theorem get (s : Slice) (pos : ℕ) : Ends (s.get pos) fun _ => pos < s.bytes.length := by
  rw [Slice.get]
  by_cases h : pos < s.bytes.length
  · rw [if_pos h, Slice.fetch, List.getElem?_eq_getElem h]
    exact ok h
  · rw [if_neg h]
    exact absent

theorem range (s : Slice) (start stop : ℕ) :
    Ends (s.range start stop) fun _ => stop ≤ s.bytes.length := by
  rw [Slice.range]
  by_cases h : start ≤ stop ∧ stop ≤ s.bytes.length
  · rw [if_pos h, Slice.fetchRange, if_pos h.2]
    exact ok h.2
  · rw [if_neg h]
    exact absent

end Ends

end CheckedReads

end Foreseerr
