import RadioGateway.Gateway.Packet

/-!
# The packet buffer

A queue of bounded length between the receive loop and the clients. A packet that finds it full is
dropped, so whoever pushes never waits.
-/

namespace RadioGateway.Gateway

/-- Whoever puts a packet in takes a permit for it, and whoever takes a packet out gives its permit
back. How many packets there are is not counted: it is what the free permits leave. -/
structure Buffer where
  capacity : Nat
  /-- Oldest first. -/
  packets : Array Packet
  /-- Permits that nobody has taken. -/
  free : Nat
  balanced : packets.size + free = capacity

namespace Buffer

def withCapacity (capacity : Nat) : Buffer where
  capacity := max capacity 1
  packets := #[]
  free := max capacity 1
  balanced := Nat.zero_add _

def size (b : Buffer) : Nat := b.capacity - b.free

def isEmpty (b : Buffer) : Bool := b.size = 0

def isFull (b : Buffer) : Bool := b.free = 0

def push (b : Buffer) (p : Packet) : Buffer :=
  if h : b.isFull then b
  else
    { b with
      packets := b.packets.push p
      free := b.free - 1
      balanced := by
        have := b.balanced
        rw [isFull, decide_eq_true_eq] at h
        rw [Array.size_push]
        omega }

def drain (b : Buffer) : List Packet × Buffer :=
  (b.packets.toList,
    { b with
      packets := #[]
      free := b.free + b.packets.size
      balanced := by
        have := b.balanced
        rw [Array.size_empty]
        omega })

theorem size_eq (b : Buffer) : b.size = b.packets.size := by
  have := b.balanced
  unfold size
  omega

theorem isEmpty_iff {b : Buffer} : b.isEmpty = true ↔ b.packets.size = 0 := by
  rw [isEmpty, decide_eq_true_eq, size_eq]

theorem isFull_iff {b : Buffer} : b.isFull = true ↔ b.capacity ≤ b.packets.size := by
  have := b.balanced
  rw [isFull, decide_eq_true_eq]
  omega

theorem packets_push (b : Buffer) (p : Packet) :
    (b.push p).packets = if b.isFull then b.packets else b.packets.push p := by
  unfold push; split <;> rfl

@[simp] theorem capacity_push (b : Buffer) (p : Packet) : (b.push p).capacity = b.capacity := by
  unfold push; split <;> rfl

end Buffer

end RadioGateway.Gateway
