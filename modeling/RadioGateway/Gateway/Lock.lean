/-!
# Fair locks

A lock is granted in the order it was asked for. Giving it back hands it to the first who waits, so
nobody who comes later can be faster.
-/

namespace RadioGateway.Gateway

/-- Those who run beside each other: the clients and the receive loops. -/
inductive Party where
  | client (id : Nat)
  | listener (id : Nat)
  deriving DecidableEq, Repr

structure Lock where
  holder : Option Party := none
  waiting : List Party := []
  deriving DecidableEq, Repr

namespace Lock

def acquire (l : Lock) (p : Party) : Lock × Bool :=
  match l.holder with
  | none => ({ l with holder := some p }, true)
  | some _ => ({ l with waiting := l.waiting ++ [p] }, false)

def release (l : Lock) : Lock × Option Party :=
  match l.waiting with
  | [] => ({ holder := none, waiting := [] }, none)
  | p :: rest => ({ holder := some p, waiting := rest }, some p)

def withdraw (l : Lock) (p : Party) : Lock × Option Party :=
  if l.holder = some p then l.release else ({ l with waiting := l.waiting.erase p }, none)

/-- Nobody waits for a lock that is free. -/
def Sound (l : Lock) : Prop := l.holder = none → l.waiting = []

theorem sound_acquire (l : Lock) (p : Party) : (l.acquire p).1.Sound := by
  unfold acquire
  split
  · intro hn; simp at hn
  · rename_i hq; intro hn; simp [hq] at hn

theorem sound_release (l : Lock) : l.release.1.Sound := by
  unfold release
  split
  · intro _; rfl
  · intro hn; simp at hn

/-- The parties that have the lock or wait for it, the holder first. -/
def parties (l : Lock) : List Party := l.holder.toList ++ l.waiting

theorem parties_acquire {l : Lock} (p : Party) (h : l.Sound) :
    (l.acquire p).1.parties = l.parties ++ [p] := by
  unfold acquire parties
  split
  · rename_i hq; simp [hq, h hq]
  · rename_i hq; simp [hq]

theorem parties_release (l : Lock) : l.release.1.parties = l.waiting := by
  unfold release parties
  split
  · rename_i hq; simp [hq]
  · rename_i hq; simp [hq]

end Lock

end RadioGateway.Gateway
