import RadioGateway.Proofs.Lifecycle

/-!
# Connects that fail

A connect that is out of range is turned away before anything has happened. One whose opening fails
leaves no link, but the configuration that was committed before; nothing of its own is left to the
next connect.
-/

namespace RadioGateway.Gateway

open RadioGateway.Radio (Config ConfigFault RadioError Update)
open RadioGateway.Station (Backend Bench Device Hardware)

variable {g g' : Gateway} {id : Nat} {u : Update} {c : Config} {e : RadioError} {k : Stage}

-- ---------------------------------------------------------------------------
-- Out of range
-- ---------------------------------------------------------------------------

theorem after_waitingTurn (hp : g.goes (.client id) = true)
    (hid : g.stage? id = some (.waitingTurn (.connect u))) :
    g.after (.resume (.client id)) = (g.depart (.client id)).takeTurn id (.connect u) := by
  have hid' : (g.depart (.client id)).stage? id = some (.waitingTurn (.connect u)) := by
    simpa using hid
  rw [after_resumeClient hp]
  simp [resumeClient, hid']

theorem connect_refused {fault : ConfigFault} (hp : g.goes (.client id) = true)
    (hid : g.stage? id = some (.waitingTurn (.connect u)))
    (hf : (g.link.config.merge u).fault? = some fault) :
    (g.after (.resume (.client id))).outcome? id = some (.error (.configuration fault.message)) ∧
      Untouched g (g.after (.resume (.client id))) ∧
      (g.after (.resume (.client id))).radio = g.radio := by
  rw [after_waitingTurn hp hid]
  simp only [takeTurn, depart_keeps, hf]
  exact ⟨(outcome?_eq_some _ _).mpr (by simp [hid]), ⟨by simp, by simp, by simp, by simp⟩, by simp⟩

theorem connect_proceeds (hp : g.goes (.client id) = true)
    (hid : g.stage? id = some (.waitingTurn (.connect u)))
    (hf : (g.link.config.merge u).fault? = none) :
    (g.after (.resume (.client id))).stage? id =
      some (.waitingRadio (.attach (g.link.config.merge u))) ∧
      Untouched g (g.after (.resume (.client id))) := by
  rw [after_waitingTurn hp hid]
  simp only [takeTurn, depart_keeps, hf]
  exact ⟨by simp [hid], by simp, by simp, by simp, by simp⟩

/-- With nobody else at it, a connect that is out of range is turned away after two steps. -/
theorem connect_refused_at_once {fault : ConfigFault} (ho : InOrder g) (ht : g.turn.holder = none)
    (hf : (g.link.config.merge u).fault? = some fault) (origin : Origin) (manner : Manner) :
    let next := g.through [.arrive origin manner (.connect u), .resume (.client g.nextId),
      .resume (.client g.nextId)]
    next.outcome? g.nextId = some (.error (.configuration fault.message)) ∧ Untouched g next := by
  obtain ⟨hp, hid, hsame, -⟩ := turn_at_once ho ht origin manner (.connect u)
  obtain ⟨hend, hsame', -⟩ := connect_refused hp hid (by rwa [hsame.link])
  exact ⟨hend, hsame.trans hsame'⟩

-- ---------------------------------------------------------------------------
-- Openings that are over
-- ---------------------------------------------------------------------------

theorem apart_after (hp : g.goes (.client id) = true) (hid : g.stage? id = some k)
    (hk : k.sends = false) : (g.after (.resume (.client id))).inbox = g.inbox ∧
      (g.after (.resume (.client id))).listener? = g.listener? := by
  rw [after_resumeClient hp]
  simpa using apart_resumeClient (g := g.depart (.client id)) (by simpa using hid) hk

/-- Where an opening is over there is one result, and the connect goes on with it. -/
theorem after_attempt {r : Except RadioError Device} (hl : InLine g) (ho : InOrder g)
    (hp : g.goes (.client id) = true) (hid : g.stage? id = some k)
    (ha : k.attempt g.station = [r]) :
    ∃ c s events, (k = .waitingRadio (.attach c) ∨ ∃ o, k = .opening c o) ∧
      g.after (.resume (.client id)) =
        ((g.depart (.client id)).withStation s events).opened id c r ∧
      ∀ h, g.station.backend = .hardware h → Station.Opens h c g.station s r := by
  have hid' : (g.depart (.client id)).stage? id = some k := by simpa using hid
  rw [after_resumeClient hp]
  unfold Stage.attempt at ha
  split at ha
  · rename_i c
    refine ⟨c, (g.station.beginAttach c).state, (g.station.beginAttach c).log, .inl rfl, ?_⟩
    split at ha
    · rename_i r' hr
      obtain rfl : r' = r := by simpa using ha
      refine ⟨by simp [resumeClient, hid', useRadio, hr], fun h hb => ?_⟩
      have hopens := Station.opens_beginAttach (c := c) hb
      rwa [hr] at hopens
    · cases ha
  · rename_i c o
    obtain rfl : (g.station.finishAttach o).result = r := by simpa using ha
    refine ⟨c, (g.station.finishAttach o).state, (g.station.finishAttach o).log, .inr ⟨o, rfl⟩,
      by simp [resumeClient, hid'], fun h hb => ?_⟩
    obtain ⟨hn, hw, hb', rfl⟩ := hl.front_opening ho hp hid
    obtain rfl : h = hw := Station.Backend.hardware.inj (hb.symm.trans hb')
    exact Station.opens_finishAttach hn
  · cases ha

/-- A connect that has opened a driver is done, and its configuration is the one that is
committed. -/
theorem attempt_commits {device : Device} (hl : InLine g) (ho : InOrder g)
    (hp : g.goes (.client id) = true) (hid : g.stage? id = some k)
    (ha : k.attempt g.station = [.ok device]) :
    let next := g.after (.resume (.client id))
    ∃ c, (k = .waitingRadio (.attach c) ∨ ∃ o, k = .opening c o) ∧
      next.stage? id = some (.finished (.ok (.connected device c))) ∧
      next.link = { config := c, connected := true } ∧
      ∀ h, g.station.backend = .hardware h → next.station.tuned = some c := by
  intro next
  obtain ⟨c, s, events, hk, hstep, hopens⟩ := after_attempt hl ho hp hid ha
  refine ⟨c, hk, ?_, ?_, fun h hb => ?_⟩
  · simp [next, hstep, opened, commit, hid]
  · simp [next, hstep, opened, commit]
  · simpa [next, hstep, opened, commit] using (hopens h hb).2.1

/-- One whose opening has failed waits for the radio once more, to see what is left. With nobody
else waiting for it that comes next. -/
theorem attempt_fails (hl : InLine g) (ho : InOrder g) (hp : g.goes (.client id) = true)
    (hid : g.stage? id = some k) (ha : k.attempt g.station = [.error e]) :
    let next := g.after (.resume (.client id))
    next.stage? id = some (.waitingRadio (.confirm e)) ∧ next.link = g.link ∧
      (g.radio.waiting = [] → next.goes (.client id) = true) := by
  intro next
  obtain ⟨c, s, events, hk, hstep, hopens⟩ := after_attempt hl ho hp hid ha
  refine ⟨by simp [next, hstep, opened, hid], by simp [next, hstep, opened], fun hw => ?_⟩
  rw [show next = _ from hstep]
  refine goes_seekRadio ?_ _ _
  simp [Lock.release, hw]

theorem attempt_pauses {c : Config} (hp : g.goes (.client id) = true)
    (hid : g.stage? id = some (.waitingRadio (.attach c)))
    (ha : Stage.attempt g.station (.waitingRadio (.attach c)) = []) :
    ∃ o, (g.after (.resume (.client id))).stage? id = some (.opening c o) := by
  have hid' : (g.depart (.client id)).stage? id = some (.waitingRadio (.attach c)) := by
    simpa using hid
  rw [after_resumeClient hp]
  unfold Stage.attempt at ha
  cases hr : (g.station.beginAttach c).result with
  | finished r => simp [hr] at ha
  | paused ms o => exact ⟨o, by simp [resumeClient, hid', useRadio, hr]⟩

/-- There is no driver, so it says that the link is lost. -/
theorem confirm_ends {h : Hardware} (hb : g.station.backend = .hardware h)
    (hn : g.station.attached = false) (hp : g.goes (.client id) = true)
    (hid : g.stage? id = some (.waitingRadio (.confirm e))) :
    let next := g.after (.resume (.client id))
    next.stage? id = some (.finished (.error (.driver e))) ∧ next.station = g.station ∧
      next.link = { g.link with connected := false } := by
  intro next
  have hid' : (g.depart (.client id)).stage? id = some (.waitingRadio (.confirm e)) := by
    simpa using hid
  have hsim : g.station.simulated = false := by simp [Station.simulated, hb]
  have hstep : next = (g.depart (.client id)).useRadio id (.confirm e) := by
    show g.after _ = _
    rw [after_resumeClient hp]
    simp [resumeClient, hid']
  rw [hstep]
  refine ⟨?_, ?_, ?_⟩
  · simp [useRadio, giveUp, hid]
  · simp [useRadio, giveUp]
  · simp [useRadio, giveUp, hn, hsim]

-- ---------------------------------------------------------------------------
-- The others
-- ---------------------------------------------------------------------------

/-- Whoever has the turn or waits for it stays where it is until it goes on itself. -/
theorem stage?_after_of_turn {m : Move} (ho : InOrder g) (hid : g.stage? id = some k)
    (hk : k.standing.turn ≠ .none) (hm : m ≠ .resume (.client id)) :
    (g.after m).stage? id = some k := by
  refine ho.stage?_after hid ?_ hm
  cases k with
  | finished outcome => exact absurd rfl hk
  | _ => rfl

-- ---------------------------------------------------------------------------
-- The turn of a connect
-- ---------------------------------------------------------------------------

/-- How a connect to `c` ends: `g` is what its last step finds, and `g'` what it leaves. -/
inductive Concludes (g g' : Gateway) (c : Config) : Outcome → Prop
  | refused {fault : ConfigFault} (hf : c.fault? = some fault) (hsame : Untouched g g')
      (hradio : g'.radio = g.radio) : Concludes g g' c (.error (.configuration fault.message))
  | failed {e : RadioError} (hf : c.fault? = none)
      (hlink : g'.link = { g.link with connected := false })
      (hdriver : g'.station.attached = false) : Concludes g g' c (.error (.driver e))
  | opened {device : Device} (hf : c.fault? = none)
      (hlink : g'.link = { config := c, connected := true })
      (hdriver : ∀ h, g.station.backend = .hardware h → g'.station.tuned = some c) :
      Concludes g g' c (.ok (.connected device c))

/-- From now on the connect to `c` has the turn and the link stays as it is, up to a step of its own
that ends it; configurations are opened by that step only, if at all. -/
def Atomic (g : Gateway) (id : Nat) (c : Config) : Prop :=
  ∀ more,
    ((g.through more).outcome? id = none ∧ (g.through more).turn.holder = some (.client id) ∧
      (g.through more).link = g.link) ∨
    ∃ before rest o, more = before ++ .resume (.client id) :: rest ∧
      let last := g.through before
      let next := last.after (.resume (.client id))
      last.link = g.link ∧ next.outcome? id = some o ∧ Concludes last next c o ∧
      (g.station.backend = .hardware .scripted →
        next.station.bench.script.opened = g.station.bench.script.opened ++ committed [o])

theorem concludes_of_attempt {o : Outcome} {r : Except RadioError Device} (hl : InLine g)
    (ho : InOrder g) (hp : g.goes (.client id) = true) (hid : g.stage? id = some k)
    (hk : k = .waitingRadio (.attach c) ∨ ∃ o, k = .opening c o) (hv : c.fault? = none)
    (ha : k.attempt g.station = [r])
    (hend : (g.after (.resume (.client id))).stage? id = some (.finished o)) :
    Concludes g (g.after (.resume (.client id))) c o := by
  cases r with
  | error e => cases hend.symm.trans (attempt_fails hl ho hp hid ha).1
  | ok device =>
    obtain ⟨c', hk', hfinished, hlink, hdriver⟩ := attempt_commits hl ho hp hid ha
    obtain rfl : c' = c := by
      rcases hk with rfl | ⟨o, rfl⟩
      · rcases hk' with he | ⟨o', he⟩ <;> cases he
        rfl
      · rcases hk' with he | ⟨o', he⟩ <;> cases he
        rfl
    cases hend.symm.trans hfinished
    exact .opened hv hlink hdriver

section Lines

variable {radio : Nat → Except RadioError Device} {books : List Config} {n : Nat} {s : Serial}
  {x : Change} {rest : List (Nat × Change)}

/-- A connect ends as `Concludes` says wherever it stands before. -/
theorem Line.concludes {o : Outcome} (hl : Line radio books g n s ((id, .connect u) :: rest))
    (ho : InOrder g) (hp : g.goes (.client id) = true)
    (hend : (g.after (.resume (.client id))).stage? id = some (.finished o)) :
    Concludes g (g.after (.resume (.client id))) (s.link.config.merge u) o := by
  have hin : InLine g := ⟨_, _, _, _, _, hl⟩
  cases hl.front _ rfl with
  | turn hn hd hid =>
    rw [← hl.link]
    cases hf : (g.link.config.merge u).fault? with
    | some fault =>
      obtain ⟨hout, hsame, hradio⟩ := connect_refused hp hid hf
      cases hend.symm.trans ((outcome?_eq_some _ _).mp hout)
      exact .refused hf hsame hradio
    | none => cases hend.symm.trans (connect_proceeds hp hid hf).1
  | attach hn hd hc hv hid =>
    subst hc
    rcases attempt_eq g.station (.waitingRadio (.attach (s.link.config.merge u))) with ha | ⟨r, ha⟩
    · obtain ⟨opening, hid'⟩ := attempt_pauses hp hid ha
      cases hend.symm.trans hid'
    · exact concludes_of_attempt hin ho hp hid (.inl rfl) hv ha hend
  | opening hn hc hv hb hd hid =>
    subst hc
    exact concludes_of_attempt hin ho hp hid (.inr ⟨_, rfl⟩) hv rfl hend
  | confirm hn hv hr hb hd hid =>
    have hnone : g.station.attached = false := by
      rw [Station.attached_eq_isSome_tuned, hd]
      rfl
    obtain ⟨hid', hstation, hlink⟩ := confirm_ends hb hnone hp hid
    cases hend.symm.trans hid'
    exact .failed hv hlink (hstation ▸ hnone)

/-- The others do not get at the link while somebody has the turn. -/
theorem Line.others {m : Move} (hl : Line radio books g n s ((id, x) :: rest)) (ho : InOrder g)
    (hm : m ≠ .resume (.client id)) :
    ∃ radio' rest', (∀ i < n, radio' i = radio i) ∧
      Line radio' books (g.after m) (n + (attempts g m).length) s ((id, x) :: rest') := by
  obtain ⟨k, hid, hk⟩ := (hl.front _ rfl).stage
  obtain ⟨radio', hr, -, ⟨hl', -⟩ | ⟨w, rest', o, hw, -, hend, -, -⟩⟩ := hl.advances ho m
  · exact ⟨radio', _, hr, hl'⟩
  · cases hw
    cases (stage?_after_of_turn ho hid hk hm).symm.trans
      (stage?_of_mem_endings (hend ▸ List.mem_singleton_self _))
    exact absurd rfl hk

theorem Line.connects (hl : Line radio books g n s ((id, .connect u) :: rest)) (ho : InOrder g)
    (m : Move) :
    (∃ radio' n' rest', Line radio' books (g.after m) n' s ((id, .connect u) :: rest')) ∨
    m = .resume (.client id) ∧ ∃ o, (g.after m).stage? id = some (.finished o) ∧
      Concludes g (g.after m) (s.link.config.merge u) o ∧
      (g.station.backend = .hardware .scripted →
        (g.after m).station.bench.script.opened = books ++ committed (s.outcomes ++ [o])) := by
  by_cases hm : m = .resume (.client id)
  · subst hm
    obtain ⟨k, hid, hk⟩ := (hl.front _ rfl).stage
    obtain ⟨radio', -, -, ⟨hl', -⟩ | ⟨w, rest', o, hw, -, hend, hout, hl'⟩⟩ :=
      hl.advances ho (.resume (.client id))
    · exact .inl ⟨radio', _, _, hl'⟩
    · cases hw
      have hfinished := stage?_of_mem_endings (hend ▸ List.mem_singleton_self _)
      have hp : g.goes (.client id) = true := by
        by_contra hp
        rw [after_resume_of_not_goes (by simpa using hp)] at hfinished
        cases hid.symm.trans hfinished
        exact absurd rfl hk
      refine .inr ⟨rfl, o, hfinished, hl.concludes ho hp hfinished, fun hb => ?_⟩
      rw [hl'.booked ((backend_after g _).trans hb), hout]
  · obtain ⟨radio', rest', -, hl'⟩ := hl.others ho hm
    exact .inl ⟨radio', _, _, hl'⟩

theorem Line.atomic (hl : Line radio books g n s ((id, .connect u) :: rest)) (ho : InOrder g) :
    Atomic g id (g.link.config.merge u) := by
  have hstep : ∀ g' m, (InOrder g' ∧ g'.station.backend = g.station.backend ∧
        ∃ radio' n' rest', Line radio' books g' n' s ((id, .connect u) :: rest')) →
      (InOrder (g'.after m) ∧ (g'.after m).station.backend = g.station.backend ∧
        ∃ radio' n' rest', Line radio' books (g'.after m) n' s ((id, .connect u) :: rest')) ∨
      m = .resume (.client id) ∧ ∃ o, (g'.after m).stage? id = some (.finished o) ∧
        Concludes g' (g'.after m) (s.link.config.merge u) o ∧
        (g'.station.backend = .hardware .scripted →
          (g'.after m).station.bench.script.opened = books ++ committed (s.outcomes ++ [o])) := by
    rintro g' m ⟨ho', hb', radio', n', rest', hl'⟩
    exact (hl'.connects ho' m).imp_left fun hline =>
      ⟨ho'.after m, (backend_after g' m).trans hb', hline⟩
  intro more
  rcases through_until hstep ⟨ho, rfl, radio, n, rest, hl⟩ more with
    ⟨ho', -, radio', n', rest', hl'⟩ |
    ⟨before, m, tail, rfl, ⟨ho', hb', radio', n', rest', hl'⟩, rfl, o, hend, hc, hopened⟩
  · exact .inl ⟨hl'.outcome?_eq_none List.mem_cons_self, hl'.holder ho'.orderly.turn,
      hl'.link.trans hl.link.symm⟩
  · refine .inr ⟨before, tail, o, rfl, hl'.link.trans hl.link.symm,
      (outcome?_eq_some _ _).mpr hend, ?_, fun hb => ?_⟩
    · rwa [hl.link]
    · rw [hopened (hb'.trans hb), hl.booked hb, List.append_assoc]
      simp [committed]

/-- As long as no connect or disconnect comes to its end, the link stays as it is. -/
theorem Line.link_after {m : Move} {waiting : List (Nat × Change)}
    (hl : Line radio books g n s waiting) (ho : InOrder g) (hm : endings g m = []) :
    (g.after m).link = g.link := by
  obtain ⟨radio', -, -, ⟨hl', -⟩ | ⟨w, rest', o, -, -, hend, -, -⟩⟩ := hl.advances ho m
  · exact hl'.link.trans hl.link.symm
  · cases hm.symm.trans hend

end Lines

theorem InLine.atomic (hl : InLine g) (ho : InOrder g) (hp : g.goes (.client id) = true)
    (hid : g.stage? id = some (.waitingTurn (.connect u))) :
    Atomic g id (g.link.config.merge u) := by
  obtain ⟨radio, books, n, s, x, rest, hline, hf⟩ := hl.front ho hp hid (by rintro ⟨⟩)
  cases hf with
  | turn hn hd hid' =>
    cases x with
    | connect u' =>
      cases hid.symm.trans hid'
      exact hline.atomic ho
    | disconnect => cases hid.symm.trans hid'
  | attach _ _ _ _ hid' | opening _ _ _ _ _ hid' | confirm _ _ _ _ _ hid' | detach _ _ hid' =>
    cases hid.symm.trans hid'

-- ---------------------------------------------------------------------------
-- Openings that have failed
-- ---------------------------------------------------------------------------

/-- An opening has failed, and there is no driver; the connect waits for the radio to say so. -/
structure Stranded (g : Gateway) (id : Nat) (e : RadioError) (link : Link) : Prop where
  stage : g.stage? id = some (.waitingRadio (.confirm e))
  driver : g.station.attached = false
  link : g.link = link
  waits : .client id ∈ g.radio.parties

/-- The connect ends with the error of the radio. It takes the link back, and that is all. -/
structure TakesBack (g g' : Gateway) (id : Nat) (e : RadioError) : Prop where
  outcome : g'.outcome? id = some (.error (.driver e))
  link : g'.link = { g.link with connected := false }
  report : g'.report.link = g'.link
  driver : g'.station.attached = false
  station : g'.station = g.station
  inbox : g'.inbox = g.inbox
  listener? : g'.listener? = g.listener?

/-- From now on the connect is stranded, up to the first time that it goes on. -/
def GivesUp (g : Gateway) (id : Nat) (e : RadioError) : Prop :=
  ∀ more,
    (Stranded (g.through more) id e g.link ∧ ((g.through more).goes (.client id) = true →
      TakesBack (g.through more) ((g.through more).after (.resume (.client id))) id e)) ∨
    ∃ before rest, more = before ++ .resume (.client id) :: rest ∧
      Stranded (g.through before) id e g.link ∧
      TakesBack (g.through before) ((g.through before).after (.resume (.client id))) id e

namespace Doomed

theorem not_attached (h : Doomed g id e) :
    g.station.attached = false ∧ ∃ h, g.station.backend = .hardware h := by
  obtain ⟨radio, books, s, u, rest, hl, hr, -, -, hid⟩ := h.front
  cases hl.front _ rfl with
  | confirm hn hv hr' hb hd hid' =>
    rw [Station.attached_eq_isSome_tuned, hd]
    exact ⟨rfl, _, hb⟩
  | turn hn | attach hn | opening hn => omega

theorem others {m : Move} (h : Doomed g id e) (ho : InOrder g) (hm : m ≠ .resume (.client id)) :
    Doomed (g.after m) id e ∧ (g.after m).link = g.link := by
  have hid := stage?_after_of_turn ho h.stage (by rintro ⟨⟩) hm
  refine ⟨(h.after ho m).resolve_right fun hf => ?_, ?_⟩
  · cases hid.symm.trans hf.1
  · obtain ⟨radio, books, s, u, rest, hl, -⟩ := h
    obtain ⟨radio', rest', -, hl'⟩ := hl.others ho hm
    exact hl'.link.trans hl.link.symm

theorem stranded (h : Doomed g id e) (ho : InOrder g) : Stranded g id e g.link :=
  ⟨h.stage, h.not_attached.1, rfl, h.mem_radio ho⟩

theorem takesBack (h : Doomed g id e) (hp : g.goes (.client id) = true) :
    TakesBack g (g.after (.resume (.client id))) id e := by
  obtain ⟨hn, hw, hb⟩ := h.not_attached
  obtain ⟨hid, hstation, hlink⟩ := confirm_ends hb hn hp h.stage
  obtain ⟨hinbox, hlisteners⟩ := apart_after hp h.stage rfl
  refine ⟨(outcome?_eq_some _ _).mpr hid, hlink, ?_, hstation ▸ hn, hstation, hinbox, hlisteners⟩
  simp [Gateway.report, Station.simulated, hstation, hb]

theorem givesUp (h : Doomed g id e) (ho : InOrder g) : GivesUp g id e := by
  have hstep : ∀ g' m, (InOrder g' ∧ Doomed g' id e ∧ g'.link = g.link) →
      (InOrder (g'.after m) ∧ Doomed (g'.after m) id e ∧ (g'.after m).link = g.link) ∨
      m = .resume (.client id) ∧ g'.goes (.client id) = true := by
    rintro g' m ⟨ho', hd, hlink⟩
    by_cases hm : m = .resume (.client id)
    · subst hm
      cases hp : g'.goes (.client id) with
      | true => exact .inr ⟨rfl, rfl⟩
      | false =>
        exact .inl (by rw [after_resume_of_not_goes hp]; exact ⟨ho', hd, hlink⟩)
    · obtain ⟨hd', hlink'⟩ := hd.others ho' hm
      exact .inl ⟨ho'.after m, hd', hlink'.trans hlink⟩
  intro more
  rcases through_until hstep ⟨ho, h, rfl⟩ more with
    ⟨ho', hd, hlink⟩ | ⟨before, m, rest, rfl, ⟨ho', hd, hlink⟩, rfl, hp⟩
  · exact .inl ⟨hlink ▸ hd.stranded ho', hd.takesBack⟩
  · exact .inr ⟨before, rest, rfl, hlink ▸ hd.stranded ho', hd.takesBack hp⟩

end Doomed

/-- As long as no connect or disconnect comes to its end, the link stays as it is. -/
theorem InLine.link_through (hl : InLine g) (ho : InOrder g) (more : List Move)
    (hm : history endings g more = []) : (g.through more).link = g.link := by
  induction more generalizing g with
  | nil => rfl
  | cons m more ih =>
    obtain ⟨hm, hmore⟩ := List.append_eq_nil_iff.mp hm
    have hrest := ih (hl.use ho (.move m)) (ho.after m) hmore
    obtain ⟨radio, books, n, s, waiting, hline⟩ := hl
    exact hrest.trans (hline.link_after ho hm)

/-- Failed connects are atomic. After every run, with any radio: a connect that has its turn is
turned away at once if its configuration is out of range, and then neither the radio nor the link,
the packets, the counters and the receive loops notice. Otherwise nobody else gets at the link
before the connect ends. If its opening fails, there is no driver from then on, and it ends with the
error of the radio; the configuration is that of before, and only the link is no longer claimed.
What is committed is always in range, and it changes only where a connect ends; so the next connect
that asks for nothing opens what was committed before. -/
theorem failed_connects_atomic (backend : Backend) (bench : Bench) (capacity epoch : Nat)
    (moves : List Move) :
    let g := (start backend bench capacity epoch).through moves
    (∀ id, g.goes (.client id) = true →
      let next := g.after (.resume (.client id))
      (∀ k, g.stage? id = some k → k.sends = false →
        next.inbox = g.inbox ∧ next.listener? = g.listener?) ∧
      (∀ u, g.stage? id = some (.arrived (.connect u)) →
        next.stage? id = some (.waitingTurn (.connect u)) ∧ Untouched g next) ∧
      (∀ u, g.stage? id = some (.waitingTurn (.connect u)) →
        Atomic g id (g.link.config.merge u) ∧
        (∀ fault, (g.link.config.merge u).fault? = some fault →
          next.outcome? id = some (.error (.configuration fault.message)) ∧ Untouched g next ∧
          next.radio = g.radio) ∧
        ((g.link.config.merge u).fault? = none →
          next.stage? id = some (.waitingRadio (.attach (g.link.config.merge u))) ∧
          Untouched g next)) ∧
      (∀ k e, g.stage? id = some k → k.attempt g.station = [.error e] →
        next.link = g.link ∧ GivesUp next id e ∧
        (g.radio.waiting = [] → next.goes (.client id) = true)) ∧
      (g.stage? id = some (.waitingTurn (.connect {})) →
        next.stage? id = some (.waitingRadio (.attach g.link.config)) ∧
        Atomic g id g.link.config)) ∧
    (g.turn.holder = none → ∀ origin manner u fault, (g.link.config.merge u).fault? = some fault →
      let next := g.through [.arrive origin manner (.connect u), .resume (.client g.nextId),
        .resume (.client g.nextId)]
      next.outcome? g.nextId = some (.error (.configuration fault.message)) ∧ Untouched g next) ∧
    (∀ more, history endings g more = [] → (g.through more).link = g.link) ∧
    g.link.config.fault? = none := by
  intro g
  have ho : InOrder g := (inOrder_start backend bench capacity epoch).through moves
  obtain ⟨served, waiting, -, -, hline⟩ := line_through backend bench capacity epoch moves
    (show ∀ i r, (history attempts (start backend bench capacity epoch) moves)[i]? = some r →
        opening (history attempts (start backend bench capacity epoch) moves) i = r
      from opening_of_getElem?)
  have hl : InLine g := ⟨_, _, _, _, _, hline⟩
  have hvalid : g.link.config.fault? = none := by
    rw [hline.link]
    exact (Config.fault?_eq_none_iff _).mpr (valid_serially _ _)
  refine ⟨fun id hp => ⟨fun k => apart_after hp, fun u => change_asks (x := .connect u) hp,
    fun u hid => ⟨?_, ?_, ?_⟩, fun k e hid ha => ?_, fun hid => ⟨?_, ?_⟩⟩,
    fun ht origin manner u fault hf => connect_refused_at_once ho ht hf origin manner,
    hl.link_through ho, hvalid⟩
  · exact hl.atomic ho hp hid
  · exact fun fault => connect_refused hp hid
  · exact connect_proceeds hp hid
  · obtain ⟨hid', hlink, hnext⟩ := attempt_fails hl ho hp hid ha
    exact ⟨hlink, (hl.dooms ho hp hid ha hid').givesUp (ho.after _), hnext⟩
  · exact (connect_proceeds hp hid hvalid).1
  · exact hl.atomic ho hp hid

end RadioGateway.Gateway
