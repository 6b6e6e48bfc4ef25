import Mathlib.Data.List.Induction
import RadioGateway.Gateway.State

/-!
# Connects and disconnects, one after another

What a sequence of connects and disconnects comes to when each is done before the next one begins.
The openings are given: `radio i` is what the opening number `i` comes to.
-/

namespace RadioGateway.Gateway

open RadioGateway.Radio (Config RadioError Update)
open RadioGateway.Station (Device)

/-- A request that changes the link. -/
inductive Change where
  | connect (u : Update)
  | disconnect

def Change.request : Change → Request
  | .connect u => .connect u
  | .disconnect => .disconnect

def Request.change? : Request → Option Change
  | .connect u => some (.connect u)
  | .disconnect => some .disconnect
  | .send _ => none

structure Serial where
  link : Link := {}
  attempts : Nat := 0
  outcomes : List Outcome := []

namespace Serial

/-- A driver is gone as soon as the next one is to be opened, so a connect whose opening fails
leaves no link. One that is out of range does not get so far. -/
def serve (radio : Nat → Except RadioError Device) (s : Serial) : Change → Serial
  | .connect u =>
    let c := s.link.config.merge u
    match c.fault? with
    | some fault =>
      { s with outcomes := s.outcomes ++ [.error (.configuration fault.message)] }
    | none =>
      match radio s.attempts with
      | .ok device =>
        { link := { config := c, connected := true }
          attempts := s.attempts + 1
          outcomes := s.outcomes ++ [.ok (.connected device c)] }
      | .error e =>
        { link := { s.link with connected := false }
          attempts := s.attempts + 1
          outcomes := s.outcomes ++ [.error (.driver e)] }
  | .disconnect =>
    { s with
      link := { s.link with connected := false }
      outcomes := s.outcomes ++ [.ok .disconnected] }

end Serial

def serially (radio : Nat → Except RadioError Device) (changes : List Change) : Serial :=
  changes.foldl (Serial.serve radio) {}

variable (radio : Nat → Except RadioError Device) (changes : List Change)

theorem serially_snoc (x : Change) :
    serially radio (changes ++ [x]) = (serially radio changes).serve radio x := by
  simp [serially]

theorem Serial.outcomes_serve (s : Serial) (x : Change) :
    ∃ o, (s.serve radio x).outcomes = s.outcomes ++ [o] := by
  unfold serve
  split
  · simp only
    split
    · exact ⟨_, rfl⟩
    · split <;> exact ⟨_, rfl⟩
  · exact ⟨_, rfl⟩

theorem length_outcomes_serially : (serially radio changes).outcomes.length = changes.length := by
  induction changes using List.reverseRecOn with
  | nil => rfl
  | append_singleton changes x ih =>
    obtain ⟨o, ho⟩ := (serially radio changes).outcomes_serve radio x
    simp [serially_snoc, ho, ih]

/-- Whoever comes later changes nothing about the outcomes that are there. -/
theorem outcomes_serially_prefix (more : List Change) :
    (serially radio changes).outcomes <+: (serially radio (changes ++ more)).outcomes := by
  induction more using List.reverseRecOn with
  | nil => simp
  | append_singleton more x ih =>
    obtain ⟨o, ho⟩ := (serially radio (changes ++ more)).outcomes_serve radio x
    rw [← List.append_assoc, serially_snoc, ho]
    exact ih.trans (List.prefix_append _ _)

/-- Each outcome is what serving the change comes to after those before it. -/
theorem outcomes_serially_getElem? {i : Nat} {x : Change} (hx : changes[i]? = some x) {o : Outcome}
    (ho : ((serially radio (changes.take i)).serve radio x).outcomes =
      (serially radio (changes.take i)).outcomes ++ [o]) :
    (serially radio changes).outcomes[i]? = some o := by
  have hi : i < changes.length := (List.getElem?_eq_some_iff.mp hx).1
  have htake : changes.take (i + 1) = changes.take i ++ [x] := by simp [List.take_add_one, hx]
  have hlength : (serially radio (changes.take i)).outcomes.length = i := by
    rw [length_outcomes_serially, List.length_take, Nat.min_eq_left (Nat.le_of_lt hi)]
  have hprefix := outcomes_serially_prefix radio (changes.take (i + 1)) (changes.drop (i + 1))
  rw [List.take_append_drop, htake, serially_snoc, ho] at hprefix
  obtain ⟨rest, hrest⟩ := hprefix
  rw [← hrest, List.append_assoc, List.getElem?_append_right (Nat.le_of_eq hlength),
    hlength, Nat.sub_self]
  rfl

-- ---------------------------------------------------------------------------
-- What is committed
-- ---------------------------------------------------------------------------

/-- The configurations that successful connects report. -/
def committed (outcomes : List Outcome) : List Config :=
  outcomes.filterMap fun
    | .ok (.connected _ c) => some c
    | _ => none

/-- The updates of the connects that were successful. -/
def accepted (changes : List Change) (outcomes : List Outcome) : List Update :=
  (changes.zip outcomes).filterMap fun
    | (.connect u, .ok _) => some u
    | _ => none

/-- The value that was set last, or else the default. -/
def lastSet {α : Type} (field : Update → Option α) (default : α) (us : List Update) : α :=
  (us.reverse.findSome? field).getD default

theorem lastSet_snoc {α : Type} (field : Update → Option α) (default : α) (us : List Update)
    (u : Update) :
    lastSet field default (us ++ [u]) = (field u).getD (lastSet field default us) := by
  cases h : field u <;> simp [lastSet, h]

def lastSetConfig (us : List Update) : Config :=
  let c : Config := {}
  { frequency := lastSet Update.frequency c.frequency us
    bandwidth := lastSet Update.bandwidth c.bandwidth us
    codingRate := lastSet Update.codingRate c.codingRate us
    spreadingFactor := lastSet Update.spreadingFactor c.spreadingFactor us
    txPower := lastSet Update.txPower c.txPower us }

theorem lastSetConfig_snoc (us : List Update) (u : Update) :
    lastSetConfig (us ++ [u]) = (lastSetConfig us).merge u := by
  simp only [lastSetConfig, lastSet_snoc, Config.merge]

theorem accepted_snoc {outcomes : List Outcome} (h : outcomes.length = changes.length) (x : Change)
    (o : Outcome) : accepted (changes ++ [x]) (outcomes ++ [o]) =
      accepted changes outcomes ++ accepted [x] [o] := by
  simp only [accepted, List.zip_append h.symm, List.filterMap_append]

/-- The configuration is, field by field, what the last successful connect set. -/
theorem config_serially : (serially radio changes).link.config =
    lastSetConfig (accepted changes (serially radio changes).outcomes) := by
  induction changes using List.reverseRecOn with
  | nil => rfl
  | append_singleton changes x ih =>
    have hlen := length_outcomes_serially radio changes
    rw [serially_snoc]
    cases x with
    | disconnect =>
      simp only [Serial.serve, accepted_snoc changes hlen]
      simpa [accepted] using ih
    | connect u =>
      simp only [Serial.serve]
      split
      · rw [accepted_snoc changes hlen]
        simpa [accepted] using ih
      · split
        · rw [accepted_snoc changes hlen, ih]
          exact (lastSetConfig_snoc _ u).symm
        · rw [accepted_snoc changes hlen]
          simpa [accepted] using ih

/-- Nothing out of range is ever committed. -/
theorem valid_serially : (serially radio changes).link.config.Valid := by
  induction changes using List.reverseRecOn with
  | nil => exact Config.valid_default
  | append_singleton changes x ih =>
    rw [serially_snoc]
    cases x with
    | disconnect => exact ih
    | connect u =>
      simp only [Serial.serve]
      split
      · exact ih
      · rename_i hf
        split
        · exact (Config.fault?_eq_none_iff _).mp hf
        · exact ih

end RadioGateway.Gateway
