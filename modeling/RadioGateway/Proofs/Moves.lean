import Mathlib.Data.List.Induction
import RadioGateway.Gateway.Run

/-!
# Moves

Everything that can happen to a gateway, one thing at a time. Any party that is ready may go on
next, requests and stimuli come at any moment, and time may go by while somebody is still ready: the
order in which `settle` lets the parties go on is one of many. A move that is not possible at the
moment changes nothing, so every list of moves is a run.
-/

namespace RadioGateway.Gateway

open RadioGateway.Log (Event)
open RadioGateway.Radio (BusError Inbound)
open RadioGateway.Station (Bench)

/-- What is done to the radios from outside. -/
inductive Stimulus where
  | queue (x : Inbound)
  | failOpen (reason : String)
  | failSend (reason : String)
  | delayOpen (ms : Nat)
  | inject (f : Chip.Arrival)
  | fault (f : Chip.Fault)
  | claimFault (e : BusError)
  | setVersion (version : UInt8)
  | refuseLora (refuses : Bool)
  | finishAfter (looks : Option Nat)
  | clearTrace

def Stimulus.apply (b : Bench) : Stimulus → Bench
  | .queue x => { b with script := { b.script with inbound := b.script.inbound ++ [x] } }
  | .failOpen reason => { b with script := { b.script with nextOpenError := some reason } }
  | .failSend reason => { b with script := { b.script with nextSendError := some reason } }
  | .delayOpen ms => { b with script := { b.script with openDelay := ms } }
  | .inject f =>
    { b with board := { b.board with
        chip := { b.board.chip with arrivals := b.board.chip.arrivals ++ [f] } } }
  | .fault f => { b with board := { b.board with faults := b.board.faults ++ [f] } }
  | .claimFault e => { b with board := { b.board with claimFaults := b.board.claimFaults ++ [e] } }
  | .setVersion version =>
    { b with board := { b.board with chip := b.board.chip.set Chip.Register.version version } }
  | .refuseLora refuses =>
    { b with board := { b.board with chip := { b.board.chip with refusesLora := refuses } } }
  | .finishAfter looks =>
    { b with board := { b.board with chip := { b.board.chip with txDoneAfter := looks } } }
  | .clearTrace => { b with board := { b.board with trace := [] } }

inductive Move where
  | arrive (origin : Origin) (manner : Manner) (r : Request)
  | resume (p : Party)
  | elapse (ms : Nat)
  | forget (id : Nat)
  | poll
  | enlist (t : Timing)
  | dismiss (id : Nat)
  | stimulate (s : Stimulus)
  | relog (news : List Event)

def stimulate (g : Gateway) (s : Stimulus) : Gateway :=
  { g with station := { g.station with bench := s.apply g.station.bench } }

/-- Whether a party may go on next. -/
def goes (g : Gateway) (p : Party) : Bool := p ∈ g.ready || p ∈ g.yielding

def depart (g : Gateway) (p : Party) : Gateway :=
  if p ∈ g.ready then { g with ready := g.ready.erase p }
  else { g with yielding := g.yielding.erase p }

def resumeReady (g : Gateway) (p : Party) : Gateway :=
  if g.goes p then (g.depart p).resume p else g

def after (g : Gateway) : Move → Gateway
  | .arrive origin manner r => g.arrive origin manner r
  | .resume p => g.resumeReady p
  | .elapse ms => g.elapse (g.clock + ms)
  | .forget id => if (g.outcome? id).isSome then g.forget id else g
  | .poll => g.poll.1
  | .enlist t => g.enlist t
  | .dismiss id => g.dismiss id
  | .stimulate s => g.stimulate s
  | .relog news => { g with news }

theorem after_resume {g : Gateway} {p : Party} (hp : g.goes p = true) :
    g.after (.resume p) = (g.depart p).resume p := by
  simp [after, resumeReady, hp]

theorem after_resume_of_not_goes {g : Gateway} {p : Party} (hp : g.goes p = false) :
    g.after (.resume p) = g := by
  simp [after, resumeReady, hp]

def through (g : Gateway) (moves : List Move) : Gateway := moves.foldl after g

@[simp] theorem through_nil (g : Gateway) : g.through [] = g := rfl

theorem through_append (g : Gateway) (moves more : List Move) :
    g.through (moves ++ more) = (g.through moves).through more := List.foldl_append

theorem through_snoc (g : Gateway) (moves : List Move) (m : Move) :
    g.through (moves ++ [m]) = (g.through moves).after m := through_append g moves [m]

/-- What every move keeps up or brings to its end is kept up by a run, or there is the move that
ends it. -/
theorem through_until {P : Gateway → Prop} {Q : Gateway → Move → Prop}
    (hstep : ∀ g m, P g → P (g.after m) ∨ Q g m) {g : Gateway} (h : P g) (moves : List Move) :
    P (g.through moves) ∨
      ∃ before m rest,
        moves = before ++ m :: rest ∧ P (g.through before) ∧ Q (g.through before) m := by
  induction moves using List.reverseRecOn with
  | nil => exact .inl h
  | append_singleton moves m ih =>
    rcases ih with hm | ⟨before, m', rest, rfl, hb, hq⟩
    · rw [through_snoc]
      rcases hstep _ m hm with hm' | hq
      · exact .inl hm'
      · exact .inr ⟨moves, m, [], rfl, hm, hq⟩
    · exact .inr ⟨before, m', rest ++ [m], by simp, hb, hq⟩

/-- What is seen at each move, in the state it is made in, in order. -/
def history (see : Gateway → Move → List α) (g : Gateway) : List Move → List α
  | [] => []
  | m :: moves => see g m ++ history see (g.after m) moves

theorem history_append (see : Gateway → Move → List α) (g : Gateway) (moves more : List Move) :
    history see g (moves ++ more) = history see g moves ++ history see (g.through moves) more := by
  induction moves generalizing g with
  | nil => rfl
  | cons m moves ih => simp [history, ih, through]

theorem history_snoc (see : Gateway → Move → List α) (g : Gateway) (moves : List Move) (m : Move) :
    history see g (moves ++ [m]) = history see g moves ++ see (g.through moves) m := by
  simp [history_append, history]

-- ---------------------------------------------------------------------------
-- The operations of a gateway are made of moves
-- ---------------------------------------------------------------------------

def Leads (g g' : Gateway) : Prop := ∃ moves, g.through moves = g'

theorem Leads.refl (g : Gateway) : Leads g g := ⟨[], rfl⟩

theorem Leads.move (g : Gateway) (m : Move) : Leads g (g.after m) := ⟨[m], rfl⟩

theorem Leads.trans {g g' g'' : Gateway} (h : Leads g g') (h' : Leads g' g'') : Leads g g'' := by
  obtain ⟨moves, rfl⟩ := h
  obtain ⟨more, rfl⟩ := h'
  exact ⟨moves ++ more, through_append g moves more⟩

theorem next_eq (g : Gateway) : g.next = g ∨ ∃ p, g.next = g.after (.resume p) := by
  unfold next
  split
  · rename_i p rest hr
    exact .inr ⟨p, by simp [after, resumeReady, goes, depart, hr]⟩
  · rename_i p rest hr hy
    exact .inr ⟨p, by simp [after, resumeReady, goes, depart, hr, hy]⟩
  · exact .inl rfl

theorem leads_next (g : Gateway) : Leads g g.next := by
  rcases next_eq g with h | ⟨p, h⟩ <;> rw [h]
  · exact .refl g
  · exact .move g (.resume p)

theorem leads_settleWithin (steps : Nat) (g : Gateway) : Leads g (settleWithin steps g) := by
  induction steps generalizing g with
  | zero => exact .refl g
  | succ steps ih =>
    unfold settleWithin
    split
    · exact .refl g
    · exact (leads_next g).trans (ih g.next)

theorem leads_settle (g : Gateway) : Leads g g.settle := leads_settleWithin g.stepBound g

theorem lt_of_pause?_eq_none {g : Gateway} {ms : Nat} (h : g.pause? ms = none) (hms : 0 < ms) :
    ∀ s ∈ g.asleep, g.clock + ms < s.1 := by
  intro s hs
  unfold pause? nextWake at h
  split at h
  · rename_i hn
    simp only [List.min?_eq_none_iff, List.map_eq_nil_iff] at hn
    simp [hn] at hs
  · rename_i time hn
    have hle : time ≤ s.1 := (List.min?_eq_some_iff.mp hn).2 s.1 (List.mem_map_of_mem hs)
    split at h
    · simp at h
    · omega

/-- When nobody wakes, time that goes by only moves the clock. -/
theorem after_elapse_of_pause?_eq_none {g : Gateway} {ms : Nat} (h : g.pause? ms = none)
    (hms : 0 < ms) : g.after (.elapse ms) = { g with clock := g.clock + ms } := by
  have hlt := lt_of_pause?_eq_none h hms
  have hstay : g.asleep.filter (fun s => decide (g.clock + ms < s.1)) = g.asleep :=
    List.filter_eq_self.mpr fun s hs => by simpa using hlt s hs
  have hwake : g.asleep.filter (fun s => decide (s.1 ≤ g.clock + ms)) = [] :=
    List.filter_eq_nil_iff.mpr fun s hs => by have := hlt s hs; simp; omega
  simp [after, elapse, hstay, hwake]

end RadioGateway.Gateway
