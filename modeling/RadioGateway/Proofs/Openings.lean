import RadioGateway.Proofs.Attachment
import RadioGateway.Station.Pins

/-!
# What an opening of the chip comes to

An opening succeeds exactly when nothing goes wrong with it, and then the chip is programmed. What
happens while the old driver is put to sleep does not count.
-/

namespace RadioGateway.Station

open RadioGateway.Radio
open Chip (Met Programmed)

variable {h : Hardware} {c : Config} {s s' : Station}

-- ---------------------------------------------------------------------------
-- Drivers
-- ---------------------------------------------------------------------------

/-- What can go wrong before an opening waits: there is no bus or it cannot be claimed, the chip is
another one, or an access meets a fault. -/
def Driver.BeginsBadly (h : Hardware) (c : Config) (b : Bench) : Prop :=
  match h with
  | .scripted => False
  | .board =>
    b.board.claimFaults ≠ [] ∨ b.board.chip.get Chip.Register.version ≠ Chip.chipVersion ∨
      Met b.board (beginOpen .board c b).state.board
  | .unavailable _ => True

/-- What can go wrong after the wait: the chip refuses LoRa, or an access meets a fault. -/
def Driver.EndsBadly (c : Config) (b : Bench) : Prop :=
  b.board.chip.speaksLora = false ∨ Met b.board (finishOpen (.settling c) b).state.board

namespace Driver

theorem beginOpen_cases (h : Hardware) (hs : h ≠ .scripted) (hv : c.fault? = none) (b : Bench) :
    (∃ e, (beginOpen h c b).result = .finished (.error e) ∧ BeginsBadly h c b) ∨
    (beginOpen h c b).result = .paused settleTime (.settling c) ∧ ¬BeginsBadly h c b ∧
      (beginOpen h c b).state.board.chip.speaksLora = !b.board.chip.refusesLora := by
  cases h with
  | scripted => exact absurd rfl hs
  | unavailable e => exact .inl ⟨_, rfl, trivial⟩
  | board =>
    cases hclaim : b.board.claimFaults with
    | cons e rest =>
      have hb : b.onBoard Chip.claim =
          ({ b with board := { b.board with claimFaults := rest } }, .error (.bus e)) := by
        simp [Bench.onBoard, Chip.claim, hclaim]
      exact .inl ⟨.bus e, by simp [beginOpen, hb], .inl (by simp [hclaim])⟩
    | nil =>
      have hb : b.onBoard Chip.claim = (b, .ok ()) := by simp [Bench.onBoard, Chip.claim, hclaim]
      simp only [BeginsBadly, beginOpen, hb, hv]
      rcases Chip.identify_cases b.board with ⟨e, b', he, hm⟩ | ⟨b', he, hversion, hm, hchip⟩
      · exact .inl ⟨e, by simp [Bench.onBoard, he], .inr (by simpa [Bench.onBoard, he] using hm)⟩
      · refine .inr ⟨by simp [Bench.onBoard, he],
          by simp [Bench.onBoard, he, hclaim, hversion, hm], ?_⟩
        simp only [Bench.onBoard, he, hchip]
        exact Chip.speaksLora_enterMode b.board.chip.reset

theorem finishOpen_cases (c : Config) (b : Bench) :
    (∃ e, (finishOpen (.settling c) b).result = .error e ∧ EndsBadly c b) ∨
    (finishOpen (.settling c) b).result = .ok { config := c } ∧ ¬EndsBadly c b ∧
      Programmed c (finishOpen (.settling c) b).state.board.chip := by
  unfold EndsBadly
  simp only [finishOpen, Bench.onBoard]
  rcases Chip.bringUp_cases c b.board with ⟨e, b', he, hm⟩ | ⟨b', he, hl, hm, hchip⟩
  · exact .inl ⟨e, by simp [he], by simpa [he] using hm⟩
  · exact .inr ⟨by simp [he], by simp [he, hl, hm],
      by simpa [he, hchip] using Chip.programmed_writes c b.board.chip⟩

end Driver

-- ---------------------------------------------------------------------------
-- Stations
-- ---------------------------------------------------------------------------

/-- A driver that is attached finds the chip programmed for its configuration. -/
def Faithful (s : Station) : Prop := ∀ c, s.tuned = some c → Programmed c s.bench.board.chip

theorem Faithful.of_untuned (h : s.tuned = none) : Faithful s := by
  intro c hc
  rw [h] at hc
  cases hc

theorem Faithful.sameDriver (hf : Faithful s) (hs : SameDriver s s') : Faithful s' := fun c hc =>
  (hf c (hs.tuned.symm.trans hc)).congr hs.settings

theorem faithful_release (hb : s.backend = .hardware h) : Faithful s.release.state :=
  .of_untuned (s.tuned_release hb)

/-- What an attach comes to before it waits. -/
theorem beginAttach_cases (hb : s.backend = .hardware h) (hs : h ≠ .scripted)
    (hv : c.fault? = none) : (s.beginAttach c).state.tuned = none ∧
    ((∃ e, (s.beginAttach c).result = .finished (.error e) ∧
        Driver.BeginsBadly h c s.release.state.bench) ∨
      (s.beginAttach c).result = .paused settleTime (.settling c) ∧
        ¬Driver.BeginsBadly h c s.release.state.bench ∧
        (s.beginAttach c).state.bench.board.chip.speaksLora =
          !s.release.state.bench.board.chip.refusesLora) := by
  have hn := s.tuned_release hb
  simp only [beginAttach, hb]
  rcases Driver.beginOpen_cases h hs hv s.release.state.bench with ⟨e, he, hm⟩ | ⟨he, hm, hl⟩
  · rw [he]
    exact ⟨hn, .inl ⟨e, rfl, hm⟩⟩
  · rw [he]
    exact ⟨hn, .inr ⟨rfl, hm, hl⟩⟩

/-- What it comes to in the end. -/
theorem finishAttach_cases (s : Station) (c : Config) :
    (∃ e, (s.finishAttach (.settling c)).result = .error e ∧ Driver.EndsBadly c s.bench ∧
      (s.finishAttach (.settling c)).state.tuned = s.tuned) ∨
    (s.finishAttach (.settling c)).result = .ok ⟨hardwareName, false⟩ ∧
      ¬Driver.EndsBadly c s.bench ∧ Faithful (s.finishAttach (.settling c)).state := by
  simp only [finishAttach]
  rcases Driver.finishOpen_cases c s.bench with ⟨e, he, hm⟩ | ⟨he, hm, hp⟩
  · rw [he]
    exact .inl ⟨e, rfl, hm, rfl⟩
  · rw [he]
    refine .inr ⟨rfl, hm, ?_⟩
    rintro _ ⟨⟩
    exact hp

theorem faithful_finishAttach (hn : s.tuned = none) :
    Faithful (s.finishAttach (.settling c)).state := by
  rcases finishAttach_cases s c with ⟨e, -, -, ht⟩ | ⟨-, -, hf⟩
  · exact .of_untuned (ht.trans hn)
  · exact hf

/-- The pins are those of the chip, or of nothing. -/
theorem Pins.hardware_ne_scripted (p : Pins) : p.hardware ≠ .scripted := by
  unfold Pins.hardware
  split <;> rintro ⟨⟩

theorem Pins.opening_hardware (p : Pins) (c : Config) : p.hardware.opening c = .settling c := by
  unfold Pins.hardware
  split <;> rfl

end RadioGateway.Station
