import RadioGateway.Log.Event

/-!
# Steps of the radio

What a step leaves, and whether an operation is over or goes on after a pause.
-/

namespace RadioGateway.Station

/-- The state after a step, what the step wrote to the log, and its result. -/
structure Effect (σ α : Type) where
  state : σ
  log : List Log.Event := []
  result : α

def Effect.map {σ α β : Type} (f : α → β) (e : Effect σ α) : Effect σ β :=
  ⟨e.state, e.log, f e.result⟩

/-- An operation that is over, or that has to wait `ms` milliseconds and goes on from `resume`. -/
inductive Progress (ρ α : Type) where
  | finished (result : α)
  | paused (ms : Nat) (resume : ρ)

/-- How an operation comes to grief: it reports an error, or it crashes. -/
inductive Interruption where
  | failed (e : Radio.RadioError)
  | crashed (reason : String)

end RadioGateway.Station
