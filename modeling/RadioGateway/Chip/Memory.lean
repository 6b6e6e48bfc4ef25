/-!
# Byte memories

A memory of a fixed size, addressed modulo that size.
-/

namespace RadioGateway.Chip

structure Memory (n : Nat) where
  cells : Vector UInt8 n
  deriving DecidableEq

namespace Memory

variable {n : Nat}

def zero : Memory n := ⟨Vector.replicate n 0⟩

def get (m : Memory n) (a : Fin n) : UInt8 := m.cells[a]

def set (m : Memory n) (a : Fin n) (b : UInt8) : Memory n := ⟨m.cells.set a b⟩

@[simp] theorem get_set_self (m : Memory n) (a : Fin n) (b : UInt8) : (m.set a b).get a = b := by
  simp [set, get]

theorem get_set_of_ne (m : Memory n) {a a' : Fin n} (b : UInt8) (h : a' ≠ a) :
    (m.set a b).get a' = m.get a' := by
  simp only [set, get, Fin.getElem_fin]
  exact Vector.getElem_set_ne _ _ (fun he => h (Fin.ext he.symm))

theorem get_set (m : Memory n) (a a' : Fin n) (b : UInt8) :
    (m.set a b).get a' = if a' = a then b else m.get a' := by
  split
  · rename_i h; rw [h, get_set_self]
  · rename_i h; exact get_set_of_ne m b h

/-- The address `k` places on; after the last address comes the first. -/
def advance (a : Fin n) (k : Nat) : Fin n := ⟨(a.val + k) % n, Nat.mod_lt _ a.pos⟩

def store (m : Memory n) (a : Fin n) : List UInt8 → Memory n
  | [] => m
  | b :: rest => (m.set a b).store (advance a 1) rest

def load (m : Memory n) (a : Fin n) : Nat → List UInt8
  | 0 => []
  | count + 1 => m.get a :: m.load (advance a 1) count

end Memory

end RadioGateway.Chip
