import RadioGateway.Chip.Memory

/-!
# Spans of a memory

The addresses that a run of bytes takes up, and what storing there changes.
-/

namespace RadioGateway.Chip

open Memory (advance)

variable {n : Nat}

def span (a : Fin n) : Nat → List (Fin n)
  | 0 => []
  | count + 1 => a :: span (advance a 1) count

theorem advance_zero (a : Fin n) : advance a 0 = a := by
  ext
  simp [advance, Nat.mod_eq_of_lt a.isLt]

theorem advance_advance (a : Fin n) (j k : Nat) : advance (advance a j) k = advance a (j + k) := by
  ext
  simp [advance, Nat.add_assoc]

theorem mem_span {a x : Fin n} {count : Nat} : x ∈ span a count ↔ ∃ i < count, x = advance a i := by
  induction count generalizing a with
  | zero => simp [span]
  | succ count ih =>
    rw [span, List.mem_cons, ih]
    constructor
    · rintro (rfl | ⟨i, hi, rfl⟩)
      · exact ⟨0, by omega, (advance_zero _).symm⟩
      · exact ⟨i + 1, by omega, by rw [advance_advance, Nat.add_comm]⟩
    · rintro ⟨i, hi, rfl⟩
      cases i with
      | zero => exact .inl (advance_zero a)
      | succ i => exact .inr ⟨i, by omega, by rw [advance_advance, Nat.add_comm]⟩

/-- A span that fits does not come round to where it began. -/
theorem not_mem_span_advance {a : Fin n} {count : Nat} (h : count < n) :
    a ∉ span (advance a 1) count := by
  rw [mem_span]
  rintro ⟨i, hi, he⟩
  rw [advance_advance] at he
  have hv : a.val = (a.val + (1 + i)) % n := congrArg Fin.val he
  have ha := a.isLt
  rcases Nat.lt_or_ge (a.val + (1 + i)) n with hlt | hge
  · rw [Nat.mod_eq_of_lt hlt] at hv
    omega
  · rw [Nat.mod_eq_sub_mod hge, Nat.mod_eq_of_lt (by omega)] at hv
    omega

namespace Memory

theorem get_store_of_not_mem {m : Memory n} {a x : Fin n} {bytes : List UInt8}
    (h : x ∉ span a bytes.length) : (m.store a bytes).get x = m.get x := by
  induction bytes generalizing m a with
  | nil => rfl
  | cons b rest ih =>
    rw [List.length_cons, span, List.mem_cons, not_or] at h
    rw [store, ih h.2, get_set_of_ne m b h.1]

theorem load_congr {m m' : Memory n} {a : Fin n} {count : Nat}
    (h : ∀ x ∈ span a count, m'.get x = m.get x) : m'.load a count = m.load a count := by
  induction count generalizing a with
  | zero => rfl
  | succ count ih =>
    rw [load, load, h a (by simp [span]), ih fun x hx => h x (by simp [span, hx])]

/-- Bytes that fit are found where they were stored. -/
theorem load_store {m : Memory n} {a : Fin n} {bytes : List UInt8} (h : bytes.length ≤ n) :
    (m.store a bytes).load a bytes.length = bytes := by
  induction bytes generalizing m a with
  | nil => rfl
  | cons b rest ih =>
    rw [List.length_cons] at h
    rw [List.length_cons, load, store, ih (by omega), get_store_of_not_mem (not_mem_span_advance h),
      get_set_self]

end Memory

end RadioGateway.Chip
