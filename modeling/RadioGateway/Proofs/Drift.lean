import RadioGateway.Proofs.Linearizable
import RadioGateway.Proofs.Openings

/-!
# The chip does not drift from what is reported

Whenever no connect or disconnect is on its way and the link is claimed, the chip holds the settings
of the configuration that is reported. An opening that goes wrong anywhere ends in a failure and
without a link.
-/

namespace RadioGateway.Gateway

open RadioGateway.Chip (Programmed)
open RadioGateway.Radio (Config RadioError Update)
open RadioGateway.Station (Bench Device Driver Faithful Hardware Pins)

-- ---------------------------------------------------------------------------
-- Runs in which others receive, too
-- ---------------------------------------------------------------------------

/-- A move, or a receive outside of the receive loops, at a moment at which nobody has the radio. -/
inductive Use where
  | move (m : Move)
  | receive (timeout : Nat)

def use (g : Gateway) : Use → Gateway
  | .move m => g.after m
  | .receive timeout =>
    if g.radio.holder = none then
      g.withStation (g.station.receive timeout).state (g.station.receive timeout).log
    else g

def uses (g : Gateway) (us : List Use) : Gateway := us.foldl use g

theorem uses_snoc (g : Gateway) (us : List Use) (u : Use) :
    g.uses (us ++ [u]) = (g.uses us).use u :=
  List.foldl_append

variable {radio radio' : Nat → Except RadioError Device} {books : List Config} {g g' : Gateway}
  {n id : Nat} {s : Serial} {x : Change} {k : Stage} {e : RadioError} {p : Pins}
  {waiting rest : List (Nat × Change)}

theorem aside_receive (g : Gateway) (timeout : Nat) : Aside g (g.use (.receive timeout)) := by
  have hs := g.station.sameDriver_receive timeout
  unfold use
  simp only
  split
  · exact .of_keeps (by simpa using hs) (by simp) (by simp) (by simp)
  · exact .of_keeps (.refl _) rfl rfl rfl

theorem InOrder.use (h : InOrder g) (u : Use) : InOrder (g.use u) := by
  cases u with
  | move m => exact h.after m
  | receive timeout =>
    unfold Gateway.use
    simp only
    split
    · exact h.congr (by simp) (by simp) (by simp) (by simp)
    · exact h

theorem backend_use (g : Gateway) (u : Use) : (g.use u).station.backend = g.station.backend := by
  cases u with
  | move m => exact backend_after g m
  | receive timeout => exact (aside_receive g timeout).station.backend

-- ---------------------------------------------------------------------------
-- The line of those who want to change the link
-- ---------------------------------------------------------------------------

/-- What the openings to come will come to does not matter yet. -/
theorem Front.mono (h : Front radio s g n id x) (hr : ∀ i < n, radio' i = radio i) :
    Front radio' s g n id x := by
  cases h with
  | turn hn hd hid => exact .turn hn hd hid
  | attach hn hd hc hv hid => exact .attach hn hd hc hv hid
  | opening hn hc hv hb hd hid => exact .opening hn hc hv hb hd hid
  | confirm hn hv he hb hd hid => exact .confirm hn hv ((hr _ (by omega)).trans he) hb hd hid
  | detach hn hd hid => exact .detach hn hd hid

theorem Line.mono (h : Line radio books g n s waiting) (hr : ∀ i < n, radio' i = radio i) :
    Line radio' books g n s waiting :=
  ⟨h.parties, h.link, h.booked, fun w hw => (h.front w hw).mono hr, h.behind, h.idle⟩

theorem Line.advances (h : Line radio books g n s waiting) (ho : InOrder g) (m : Move) :
    ∃ radio', (∀ i < n, radio' i = radio i) ∧ (∀ r ∈ attempts g m, radio' n = r) ∧
      Advances radio' books g m n s waiting := by
  have hnews : ∃ radio' : Nat → Except RadioError Device,
      (∀ i < n, radio' i = radio i) ∧ ∀ r ∈ attempts g m, radio' n = r := by
    rcases attempts_eq g m with he | ⟨r, he⟩
    · exact ⟨radio, fun _ _ => rfl, by simp [he]⟩
    · exact ⟨Function.update radio n r,
        fun i hi => Function.update_of_ne (by omega) _ _, by simp [he]⟩
  obtain ⟨radio', hr, hn⟩ := hnews
  exact ⟨radio', hr, hn, (h.mono hr).after ho m hn⟩

/-- Somebody has the turn and others wait for it, or nobody does. -/
def InLine (g : Gateway) : Prop := ∃ radio books n s waiting, Line radio books g n s waiting

theorem InLine.use (h : InLine g) (ho : InOrder g) (u : Use) : InLine (g.use u) := by
  obtain ⟨radio, books, n, s, waiting, hl⟩ := h
  cases u with
  | receive timeout => exact ⟨radio, books, n, s, waiting, hl.aside (aside_receive g timeout)⟩
  | move m =>
    obtain ⟨radio', -, -, hl' | ⟨w, rest, o, -, -, -, -, hl'⟩⟩ := hl.advances ho m
    · exact ⟨radio', books, _, s, _, hl'.1⟩
    · exact ⟨radio', books, _, _, rest, hl'⟩

theorem InLine.settled (h : InLine g) (hq : g.turn.parties = []) : Settled g := by
  obtain ⟨radio, books, n, s, waiting, hl⟩ := h
  exact (hl.idle (by simpa using hl.parties.symm.trans hq)).2

/-- The front of the line, as it is found by whoever goes on there. -/
theorem InLine.front (h : InLine g) (ho : InOrder g) (hp : g.goes (.client id) = true)
    (hid : g.stage? id = some k) (hk : k.standing.turn ≠ .none) :
    ∃ radio books n s x rest, Line radio books g n s ((id, x) :: rest) ∧
    Front radio s g n id x := by
  obtain ⟨radio, books, n, s, waiting, hl⟩ := h
  have hholder := ho.holds_turn hp (by rwa [standing_client hid])
  cases waiting with
  | nil =>
    have hmem := Lock.mem_parties_of_holder hholder
    rw [hl.parties] at hmem
    cases hmem
  | cons w rest =>
    obtain rfl : id = w.1 := by simpa using hholder.symm.trans (hl.holder ho.orderly.turn)
    exact ⟨radio, books, n, s, w.2, rest, hl, hl.front w rfl⟩

theorem InLine.front_attach {c : Config} (h : InLine g) (ho : InOrder g)
    (hp : g.goes (.client id) = true) (hid : g.stage? id = some (.waitingRadio (.attach c))) :
    c.fault? = none := by
  obtain ⟨radio, books, n, s, x, rest, -, hf⟩ := h.front ho hp hid (by rintro ⟨⟩)
  cases hf with
  | attach hn hd hc hv hid' =>
    cases hid.symm.trans hid'
    exact hv
  | turn _ _ hid' | opening _ _ _ _ _ hid' | confirm _ _ _ _ _ hid' | detach _ _ hid' =>
    cases hid.symm.trans hid'

theorem InLine.front_opening {c : Config} {o : Station.Opening} (h : InLine g) (ho : InOrder g)
    (hp : g.goes (.client id) = true) (hid : g.stage? id = some (.opening c o)) :
    g.station.tuned = none ∧ ∃ h, g.station.backend = .hardware h ∧ o = h.opening c := by
  obtain ⟨radio, books, n, s, x, rest, -, hf⟩ := h.front ho hp hid (by rintro ⟨⟩)
  cases hf with
  | opening hn hc hv hb hd hid' =>
    cases hid.symm.trans hid'
    exact ⟨hd, _, hb, rfl⟩
  | turn _ _ hid' | attach _ _ _ _ hid' | confirm _ _ _ _ _ hid' | detach _ _ hid' =>
    cases hid.symm.trans hid'

theorem connected_report {h : Hardware} (hb : g.station.backend = .hardware h) :
    g.report.link.connected = g.link.connected := by
  simp [report, Station.simulated, hb]

-- ---------------------------------------------------------------------------
-- What holds at every moment
-- ---------------------------------------------------------------------------

/-- What holds at every moment of a run with the radio on some pins. -/
structure Tended (p : Pins) (g : Gateway) : Prop where
  order : InOrder g
  line : InLine g
  backend : g.station.backend = .hardware p.hardware
  faithful : Faithful g.station

theorem tended_start (p : Pins) (bench : Bench) (capacity epoch : Nat) :
    Tended p (start (.hardware p.hardware) bench capacity epoch) :=
  ⟨inOrder_start _ _ _ _, ⟨fun _ => .error .notConnected, _, _, _, _, line_start _ _ _ _⟩, rfl,
    .of_untuned rfl⟩

namespace Tended

theorem faithful_resumeClient (h : Tended p g) (hp : g.goes (.client id) = true)
    (hid : g.stage? id = some k) :
    Faithful ((g.depart (.client id)).resumeClient id).station := by
  have hid' : (g.depart (.client id)).stage? id = some k := by simpa using hid
  have hstep := handles_resumeClient hid'
  rw [(depart_keeps g (.client id)).1] at hstep
  generalize ((g.depart (.client id)).resumeClient id).station = s at hstep ⊢
  cases hstep with
  | same hs => exact h.faithful.sameDriver hs
  | attach c =>
    have hv := h.line.front_attach h.order hp hid
    exact .of_untuned (Station.beginAttach_cases h.backend p.hardware_ne_scripted hv).1
  | finish c o =>
    obtain ⟨hn, hw, hb, rfl⟩ := h.line.front_opening h.order hp hid
    obtain rfl : p.hardware = hw := Station.Backend.hardware.inj (h.backend.symm.trans hb)
    rw [p.opening_hardware]
    exact Station.faithful_finishAttach hn
  | detach => exact Station.faithful_release h.backend

theorem faithful_after (h : Tended p g) (m : Move) : Faithful (g.after m).station := by
  by_cases hm : ∃ party, m = .resume party
  · obtain ⟨party, rfl⟩ := hm
    cases hp : g.goes party with
    | false =>
      rw [after_resume_of_not_goes hp]
      exact h.faithful
    | true =>
      rw [after_resume hp]
      cases party with
      | listener id =>
        exact h.faithful.sameDriver
          ((aside_depart _).trans (aside_resumeListener (g.depart (.listener id)) id)).station
      | client id =>
        cases hid : g.stage? id with
        | none => simpa [resume, resumeClient, hid] using h.faithful
        | some k => exact h.faithful_resumeClient hp hid
  · exact h.faithful.sameDriver (aside_after h.order m fun party he => hm ⟨party, he⟩).station

theorem use (h : Tended p g) (u : Use) : Tended p (g.use u) := by
  refine ⟨h.order.use u, h.line.use h.order u, (backend_use g u).trans h.backend, ?_⟩
  cases u with
  | move m => exact h.faithful_after m
  | receive timeout => exact h.faithful.sameDriver (aside_receive g timeout).station

theorem uses (h : Tended p g) (us : List Use) : Tended p (g.uses us) := by
  induction us generalizing g with
  | nil => exact h
  | cons u us ih => exact ih (h.use u)

/-- When nobody has the turn, what is reported is what the chip was programmed for. -/
theorem programmed (h : Tended p g) (hq : g.turn.parties = [])
    (hc : g.report.link.connected = true) :
    Programmed g.report.link.config g.station.bench.board.chip := by
  have hconnected : g.link.connected = true := (connected_report h.backend).symm.trans hc
  have htuned := h.line.settled hq _ h.backend
  rw [hconnected, if_pos rfl] at htuned
  exact h.faithful _ htuned

end Tended

-- ---------------------------------------------------------------------------
-- Openings that go wrong
-- ---------------------------------------------------------------------------

theorem stage?_of_mem_endings {m : Move} {o : Outcome} (h : (id, o) ∈ endings g m) :
    (g.after m).stage? id = some (.finished o) := by
  obtain ⟨party, -, hp⟩ := List.mem_filterMap.mp h
  cases party with
  | listener other => cases hp
  | client other =>
    obtain ⟨o', ho, he⟩ := Option.map_eq_some_iff.mp hp
    cases he
    exact (outcome?_eq_some _ _).mp ho

/-- The turn is that of a connect whose opening has failed; it has not said so yet. -/
def Doomed (g : Gateway) (id : Nat) (e : RadioError) : Prop :=
  ∃ radio books s u rest,
    Line radio books g (s.attempts + 1) s ((id, .connect u) :: rest) ∧ radio s.attempts = .error e

/-- The failure has become the outcome of the connect, and no link is reported. -/
def Failed (g : Gateway) (id : Nat) (e : RadioError) : Prop :=
  g.stage? id = some (.finished (.error (.driver e))) ∧ g.report.link.connected = false

namespace Doomed

theorem front (h : Doomed g id e) : ∃ radio books s u rest,
    Line radio books g (s.attempts + 1) s ((id, .connect u) :: rest) ∧ radio s.attempts = .error e ∧
    (s.link.config.merge u).fault? = none ∧ (∃ h, g.station.backend = .hardware h) ∧
    g.stage? id = some (.waitingRadio (.confirm e)) := by
  obtain ⟨radio, books, s, u, rest, hl, hr⟩ := h
  cases hl.front _ rfl with
  | confirm hn hv hr' hb hd hid =>
    cases hr.symm.trans hr'
    exact ⟨radio, books, s, u, rest, hl, hr, hv, ⟨_, hb⟩, hid⟩
  | turn hn | attach hn | opening hn => omega

theorem stage (h : Doomed g id e) : g.stage? id = some (.waitingRadio (.confirm e)) := by
  obtain ⟨_, _, _, _, _, -, -, -, -, hid⟩ := h.front
  exact hid

theorem after (h : Doomed g id e) (ho : InOrder g) (m : Move) :
    Doomed (g.after m) id e ∨ Failed (g.after m) id e := by
  obtain ⟨radio, books, s, u, rest, hl, hr, hv, ⟨hw, hb⟩, -⟩ := h.front
  obtain ⟨radio', hsame, -, hadv⟩ := hl.advances ho m
  have hr' : radio' s.attempts = .error e := (hsame _ (by omega)).trans hr
  rcases hadv with ⟨hl', -⟩ | ⟨w, rest', o, hfront, -, hend, hout, hl'⟩
  · left
    have hn : s.attempts + 1 + (attempts g m).length = s.attempts + 1 := by
      cases hl'.front _ rfl with
      | turn hn | attach hn | opening hn | confirm hn => omega
    rw [hn] at hl'
    exact ⟨radio', books, s, u, _, hl', hr'⟩
  · right
    cases hfront
    have hs : s.serve radio' (.connect u) =
        { link := { s.link with connected := false }
          attempts := s.attempts + 1
          outcomes := s.outcomes ++ [.error (.driver e)] } := by
      simp only [Serial.serve, hv, hr']
    rw [hs] at hout hl'
    obtain rfl : o = .error (.driver e) := by simpa using hout.symm
    refine ⟨stage?_of_mem_endings (hend ▸ List.mem_singleton_self _), ?_⟩
    rw [connected_report ((backend_after g m).trans hb), hl'.link]

theorem use (h : Doomed g id e) (ho : InOrder g) (u : Use) :
    Doomed (g.use u) id e ∨ Failed (g.use u) id e := by
  cases u with
  | move m => exact h.after ho m
  | receive timeout =>
    obtain ⟨radio, books, s, u, rest, hl, hr⟩ := h
    exact .inl ⟨radio, books, s, u, rest, hl.aside (aside_receive g timeout), hr⟩

theorem mem_radio (h : Doomed g id e) (ho : InOrder g) : .client id ∈ g.radio.parties := by
  refine (ho.orderly.radio.mem _).mpr ?_
  rw [Function.comp_apply, standing_client h.stage]
  rintro ⟨⟩

theorem failed (h : Doomed g id e) (ho : InOrder g) (hp : g.goes (.client id) = true) :
    Failed (g.after (.resume (.client id))) id e := by
  refine (h.after ho _).resolve_left fun hd => ?_
  have hid : (g.depart (.client id)).stage? id = some (.waitingRadio (.confirm e)) := by
    simpa using h.stage
  have hstage := hd.stage
  rw [after_resumeClient hp] at hstage
  simp [resumeClient, hid, useRadio, giveUp] at hstage

end Doomed

theorem Line.doomed {u : Update} {m : Move}
    (hl : Line radio books g s.attempts s ((id, .connect u) :: rest)) (ho : InOrder g)
    (hm : attempts g m = [.error e])
    (hid : (g.after m).stage? id = some (.waitingRadio (.confirm e))) :
    Doomed (g.after m) id e := by
  obtain ⟨radio', -, hr, ⟨hl', -⟩ | ⟨w, rest', o, hw, -, hend, -, -⟩⟩ := hl.advances ho m
  · rw [hm] at hr hl'
    exact ⟨radio', books, s, u, _, hl', hr _ (by simp)⟩
  · cases hw
    cases hid.symm.trans (stage?_of_mem_endings (hend ▸ List.mem_singleton_self _))

theorem turn_of_attempt {st : Station} {r : Except RadioError Device} (ha : k.attempt st = [r]) :
    k.standing.turn ≠ .none := by
  unfold Stage.attempt at ha
  split at ha
  · rintro ⟨⟩
  · rintro ⟨⟩
  · cases ha

/-- An opening that fails dooms the connect whose turn it is. -/
theorem InLine.dooms (h : InLine g) (ho : InOrder g) (hp : g.goes (.client id) = true)
    (hid : g.stage? id = some k) (ha : k.attempt g.station = [.error e])
    (hnext : (g.after (.resume (.client id))).stage? id = some (.waitingRadio (.confirm e))) :
    Doomed (g.after (.resume (.client id))) id e := by
  obtain ⟨radio, books, n, s, x, rest, hl, hf⟩ := h.front ho hp hid (turn_of_attempt ha)
  have hm : attempts g (.resume (.client id)) = [.error e] := by
    rw [attempts_resumeClient hp hid, ha]
  cases hf with
  | attach hn =>
    subst hn
    exact hl.doomed ho hm hnext
  | opening hn =>
    subst hn
    exact hl.doomed ho hm hnext
  | turn hn hd hid' => cases hid.symm.trans hid'; cases ha
  | confirm hn hv hr hb hd hid' => cases hid.symm.trans hid'; cases ha
  | detach hn hd hid' => cases hid.symm.trans hid'; cases ha

/-- Whatever happens from now on, the connect still waits for the radio, and fails as soon as it has
it, or there has been a moment at which it failed and left no link. -/
def Fails (g : Gateway) (id : Nat) (e : RadioError) : Prop :=
  ∀ us,
    ((g.uses us).stage? id = some (.waitingRadio (.confirm e)) ∧
      .client id ∈ (g.uses us).radio.parties ∧
      ((g.uses us).goes (.client id) = true →
        Failed ((g.uses us).after (.resume (.client id))) id e)) ∨
    ∃ before u rest, us = before ++ u :: rest ∧
      (g.uses before).stage? id = some (.waitingRadio (.confirm e)) ∧
      Failed (g.uses (before ++ [u])) id e

theorem Doomed.fails (h : Doomed g id e) (ht : Tended p g) : Fails g id e := by
  have hrun (us : List Use) : Doomed (g.uses us) id e ∨
      ∃ before u rest, us = before ++ u :: rest ∧
        (g.uses before).stage? id = some (.waitingRadio (.confirm e)) ∧
        Failed (g.uses (before ++ [u])) id e := by
    induction us using List.reverseRecOn with
    | nil => exact .inl h
    | append_singleton us u ih =>
      rcases ih with hd | ⟨before, v, rest, rfl, hid, hf⟩
      · rw [uses_snoc]
        rcases hd.use (ht.uses us).order u with hd' | hf
        · exact .inl hd'
        · exact .inr ⟨us, u, [], rfl, hd.stage, uses_snoc g us u ▸ hf⟩
      · exact .inr ⟨before, v, rest ++ [u], by simp, hid, hf⟩
  intro us
  rcases hrun us with hd | hf
  · have ho := (ht.uses us).order
    exact .inl ⟨hd.stage, hd.mem_radio ho, hd.failed ho⟩
  · exact .inr hf

namespace Tended

theorem fails (h : Tended p g) (hp : g.goes (.client id) = true) (hid : g.stage? id = some k)
    (ha : k.attempt g.station = [.error e])
    (hnext : (g.after (.resume (.client id))).stage? id = some (.waitingRadio (.confirm e))) :
    Fails (g.after (.resume (.client id))) id e :=
  (h.line.dooms h.order hp hid ha hnext).fails (h.use (.move (.resume (.client id))))

theorem attach {c : Config} (h : Tended p g) (hp : g.goes (.client id) = true)
    (hid : g.stage? id = some (.waitingRadio (.attach c))) :
    (Driver.BeginsBadly p.hardware c g.station.release.state.bench →
      ∃ e, Fails (g.after (.resume (.client id))) id e) ∧
    (¬Driver.BeginsBadly p.hardware c g.station.release.state.bench →
      (g.after (.resume (.client id))).stage? id = some (.opening c (.settling c)) ∧
      ((g.after (.resume (.client id))).station.bench.board.chip.speaksLora =
        !g.station.release.state.bench.board.chip.refusesLora)) := by
  have hid' : (g.depart (.client id)).stage? id = some (.waitingRadio (.attach c)) := by
    simpa using hid
  have hv := h.line.front_attach h.order hp hid
  obtain ⟨-, ⟨e, he, hm⟩ | ⟨he, hm, hl⟩⟩ :=
    Station.beginAttach_cases h.backend p.hardware_ne_scripted hv
  · refine ⟨fun _ => ⟨e, h.fails hp hid (by simp [Stage.attempt, he]) ?_⟩, fun hn => absurd hm hn⟩
    rw [after_resumeClient hp]
    simp [resumeClient, hid', useRadio, he, opened]
  · refine ⟨fun hb => absurd hb hm, fun _ => ⟨?_, ?_⟩⟩
    · rw [after_resumeClient hp]
      simp [resumeClient, hid', useRadio, he]
    · rw [after_resumeClient hp]
      simpa [resumeClient, hid', useRadio, he] using hl

theorem finish {c : Config} {o : Station.Opening} (h : Tended p g) (hp : g.goes (.client id) = true)
    (hid : g.stage? id = some (.opening c o)) :
    (Driver.EndsBadly c g.station.bench → ∃ e, Fails (g.after (.resume (.client id))) id e) ∧
    (¬Driver.EndsBadly c g.station.bench →
      (g.after (.resume (.client id))).stage? id =
        some (.finished (.ok (.connected ⟨Station.hardwareName, false⟩ c))) ∧
      (g.after (.resume (.client id))).report.link = { config := c, connected := true }) := by
  obtain ⟨-, hw, hb, rfl⟩ := h.line.front_opening h.order hp hid
  obtain rfl : p.hardware = hw := Station.Backend.hardware.inj (h.backend.symm.trans hb)
  rw [p.opening_hardware] at hid
  have hid' : (g.depart (.client id)).stage? id = some (.opening c (.settling c)) := by
    simpa using hid
  rcases Station.finishAttach_cases g.station c with ⟨e, he, hm, -⟩ | ⟨he, hm, -⟩
  · refine ⟨fun _ => ⟨e, h.fails hp hid (by simp [Stage.attempt, he]) ?_⟩, fun hn => absurd hm hn⟩
    rw [after_resumeClient hp]
    simp [resumeClient, hid', he, opened]
  · refine ⟨fun hb => absurd hb hm, fun _ => ⟨?_, ?_⟩⟩
    · rw [after_resumeClient hp]
      simp [resumeClient, hid', he, opened, commit]
    · rw [after_resumeClient hp]
      simp [resumeClient, hid', he, opened, commit, report]

end Tended

/-- The chip never drifts from what is reported. With the radio on any pins, from any state of the
chip and with any faults: when nobody has the turn and a link is reported, the settings of the
reported configuration are in the chip. A connect fails for good, and leaves no link, exactly when
its opening goes wrong somewhere; putting the old driver to sleep is no part of that. -/
theorem settings_never_drift (p : Pins) (bench : Bench) (capacity epoch : Nat) (us : List Use) :
    let g := (start (.hardware p.hardware) bench capacity epoch).uses us
    (g.turn.parties = [] → g.report.link.connected = true →
      Programmed g.report.link.config g.station.bench.board.chip) ∧
    ∀ id, g.goes (.client id) = true →
      let next := g.after (.resume (.client id))
      (∀ c, g.stage? id = some (.waitingRadio (.attach c)) →
        (Driver.BeginsBadly p.hardware c g.station.release.state.bench → ∃ e, Fails next id e) ∧
        (¬Driver.BeginsBadly p.hardware c g.station.release.state.bench →
          next.stage? id = some (.opening c (.settling c)) ∧
          (next.station.bench.board.chip.speaksLora =
            !g.station.release.state.bench.board.chip.refusesLora))) ∧
      ∀ c o, g.stage? id = some (.opening c o) →
        (Driver.EndsBadly c g.station.bench → ∃ e, Fails next id e) ∧
        (¬Driver.EndsBadly c g.station.bench →
          next.stage? id =
            some (.finished (.ok (.connected ⟨Station.hardwareName, false⟩ c))) ∧
          next.report.link = { config := c, connected := true }) := by
  intro g
  have ht : Tended p g := (tended_start p bench capacity epoch).uses us
  exact ⟨ht.programmed, fun id hp => ⟨fun c => ht.attach hp, fun c o => ht.finish hp⟩⟩

end RadioGateway.Gateway
