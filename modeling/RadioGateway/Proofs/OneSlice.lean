import RadioGateway.Proofs.Waiting

/-!
# A request waits for a slice at most

What a request has to wait for is the rest of a slice, if a loop listens, and those who have asked
before. `Underway` follows it from its arrival to its outcome: a send or a disconnect has the radio
once, a connect keeps it for as long as the opening takes, and after an opening that failed it asks
again, when there is no driver left to listen with. The sends that wait for a slice to end are
served before the loop listens again, since it asks behind them.
-/

namespace RadioGateway.Station

/-- A send without a driver comes to nothing. -/
theorem verdict_detached {s : Station} (hb : s.backend = .hardware .scripted)
    (ha : s.attached = false) (payload : List UInt8) :
    s.verdict payload = .error .notConnected := by
  have hd : s.driver = none := by simpa [attached] using ha
  simp [verdict, obstacle?, hb, hd]

end RadioGateway.Station

namespace RadioGateway.Gateway

open Function (update)
open RadioGateway.Radio (Config RadioError)
open RadioGateway.Station (Bench Opening)

variable {again : Prop} {g : Gateway} {id due : Nat} {m : Move} {k : Stage}

-- ---------------------------------------------------------------------------
-- While a request is not disturbed
-- ---------------------------------------------------------------------------

/-- What is allowed up to the end of a request: openings take `delay` milliseconds at most, and
nobody else connects or disconnects before the request has been taken up. -/
structure Undisturbed (id delay : Nat) (g : Gateway) (m : Move) : Prop where
  paced : Paced g m
  alone : m.intrudes = true → ∀ r, g.stage? id ≠ some (.arrived r)
  delay : ∀ ms, m = .stimulate (.delayOpen ms) → ms ≤ delay

theorem Steady.openDelay_after (h : Steady g) (hm : ∀ ms, m ≠ .stimulate (.delayOpen ms)) :
    (g.after m).openDelay = g.openDelay := by
  cases m with
  | resume p =>
    cases hp : g.goes p with
    | false => rw [after_resume_of_not_goes hp]
    | true =>
      cases p with
      | client id =>
        obtain ⟨_, _, -, -, hgoes⟩ := h.clientGoes hp
        exact hgoes.delay
      | listener id =>
        obtain ⟨l, hid⟩ := h.order.listener?_of_goes hp
        obtain ⟨_, hgoes⟩ := h.loopGoes hp hid
        exact hgoes.delay
  | stimulate x =>
    cases x with
    | delayOpen ms => exact absurd rfl (hm ms)
    | _ => rfl
  | forget id => simp only [Gateway.after]; split <;> rfl
  | arrive | enlist | dismiss => simp [Gateway.after, openDelay]
  | elapse | poll | relog => rfl

theorem Steady.openDelay_le {delay : Nat} (h : Steady g) (hd : g.openDelay ≤ delay)
    (hm : Undisturbed id delay g m) : (g.after m).openDelay ≤ delay := by
  by_cases he : ∃ ms, m = .stimulate (.delayOpen ms)
  · obtain ⟨ms, rfl⟩ := he
    exact hm.delay ms rfl
  · rw [h.openDelay_after fun ms hms => he ⟨ms, hms⟩]
    exact hd

theorem Busy.undisturbed (h : Busy g m) (id delay : Nat) : Undisturbed id delay g m := by
  refine ⟨h.paced, fun hi => ?_, fun ms he => ?_⟩
  · cases m with
    | arrive => cases h
    | _ => cases hi
  · subst he
    cases h

-- ---------------------------------------------------------------------------
-- A request on its way
-- ---------------------------------------------------------------------------

/-- The request has its outcome, or the outcome has been collected. -/
def Over (g : Gateway) (id : Nat) : Prop :=
  (∃ o, g.stage? id = some (.finished o)) ∨ g.stage? id = none ∧ id < g.nextId

/-- What has an outcome keeps it up to its collection. -/
theorem Over.stage?_after (h : Over g id) (ho : InOrder g) (hk : (g.after m).stage? id = some k) :
    g.stage? id = some k := by
  rcases ho.stage?_of_after hk with hbefore | ⟨rfl, -⟩ | ⟨rfl, hp⟩
  · exact hbefore
  · rcases h with ⟨o, hid⟩ | ⟨-, hlt⟩
    · cases ho.stage?_next.symm.trans hid
    · exact absurd hlt (Nat.lt_irrefl _)
  · obtain ⟨k₀, hk₀, hf⟩ := ho.stage?_of_goes hp
    rcases h with ⟨o, hid⟩ | ⟨hnone, -⟩
    · cases hk₀.symm.trans hid
      cases hf
    · cases hk₀.symm.trans hnone

theorem Over.after (h : Over g id) (ho : InOrder g) (m : Move) : Over (g.after m) id := by
  have hknown : id < g.nextId := by
    rcases h with ⟨o, hid⟩ | ⟨-, hlt⟩
    · exact ho.fresh.client id (by simp [hid])
    · exact hlt
  cases hk : (g.after m).stage? id with
  | none => exact .inr ⟨hk, Nat.lt_of_lt_of_le hknown (nextId_le_after g m)⟩
  | some k =>
    have hbefore := h.stage?_after ho hk
    rcases h with ⟨o, hid⟩ | ⟨hnone, -⟩
    · cases hbefore.symm.trans hid
      exact .inl ⟨o, hk⟩
    · cases hbefore.symm.trans hnone

def Request.connects : Request → Bool
  | .connect _ => true
  | _ => false

/-- What a request wants the radio for first. -/
inductive Wants : Request → Errand → Prop
  | connect (u : Radio.Update) (c : Config) : Wants (.connect u) (.attach c)
  | disconnect : Wants .disconnect .detach
  | send (payload : List UInt8) : Wants (.send (.ok payload)) (.send payload)

/-- How far a request has come that came in at `since`: it has the radio by `due`, and a connect is
over by `late`. If there is no driver, `off`, a send comes to nothing. -/
inductive Underway (since due late : Nat) (off : Prop) (r : Request) (g : Gateway) (id : Nat) : Prop
  | arrived (hid : g.stage? id = some (.arrived r)) (halone : Alone g id)
      (hp : g.goes (.client id) = true) (hc : g.clock = since)
      (hdue : g.station.attached = false ∨ since + Station.sliceTime ≤ due)
      (hoff : off → g.station.attached = false)
  | taken (hs : ∀ payload, r ≠ .send payload) (hid : g.stage? id = some (.waitingTurn r))
      (hp : g.goes (.client id) = true) (hc : g.clock = since)
      (hdue : g.station.attached = false ∨ since + Station.sliceTime ≤ due)
      (hoff : off → g.station.attached = false)
  | waiting {e : Errand} (he : Wants r e) (hid : g.stage? id = some (.waitingRadio e))
      (hw : Waits True due g id) (hoff : off → g.station.attached = false)
  | opening {c : Config} {o : Opening} {wake : Nat} (hr : r.connects = true)
      (hid : g.stage? id = some (.opening c o)) (ha : g.station.attached = false)
      (hdue : Due g (.client id) wake) (hwake : wake ≤ late) (hc : g.clock ≤ late)
  | confirming {e : RadioError} (hr : r.connects = true)
      (hid : g.stage? id = some (.waitingRadio (.confirm e))) (ha : g.station.attached = false)
      (hw : Waits True late g id)
  | ended (h : Over g id) (ho : off → ∀ payload o, r = .send (.ok payload) →
      g.outcome? id = some o → o = .error (.driver .notConnected))

namespace Underway

variable {since late delay : Nat} {off : Prop} {r : Request}

theorem of_connects (hr : r.connects = true) (h : Over g id) :
    Underway since due late off r g id := by
  refine .ended h fun _ payload o he => ?_
  subst he
  cases hr

/-- Another's move. -/
theorem others (hu : Underway since due late off r g id) (h : Steady g)
    (hm : Undisturbed id delay g m) (hown : m ≠ .resume (.client id)) :
    Underway since due late off r (g.after m) id := by
  have hstage {k : Stage} (hid : g.stage? id = some k) (hk : k.isFinished = false) :
      (g.after m).stage? id = some k := h.order.stage?_after hid hk hown
  have hspares : Spares (.client id) g (g.after m) :=
    spares_after (fun he => absurd he hown) (by simp)
  have hwaits {e : Errand} {due : Nat} (hid : g.stage? id = some (.waitingRadio e))
      (hw : Waits True due g id) :
      Waits True due (g.after m) id := h.waits_after hw hid hm.paced fun he => absurd he hown
  have hattached (ht : g.TurnFree id) : (g.after m).station.attached = g.station.attached :=
    ht.attached_after h.order hown
  -- nobody waits for time to go by who can go on
  have hclock (hp : g.goes (.client id) = true) : (g.after m).clock = g.clock := by
    refine clock_after fun ms he => ?_
    subst he
    simp [not_goes_of_isQuiet hm.paced.1] at hp
  cases hu with
  | arrived hid halone hp hc hdue hoff =>
    have hquiet : m.intrudes = false := by
      by_contra hi
      exact hm.alone (by simpa using hi) r hid
    have ha := hattached (halone.turnFree h.order)
    exact .arrived (hstage hid rfl) (halone.after h hquiet) (hspares.goes hp) ((hclock hp).trans hc)
      (ha.symm ▸ hdue) fun ho => ha.trans (hoff ho)
  | taken hs hid hp hc hdue hoff =>
    have hheld := h.order.holds_turn hp (by simp [standing_client hid, Stage.standing])
    have ha := hattached fun p hp' => Option.some.inj (hp'.symm.trans hheld)
    exact .taken hs (hstage hid rfl) (hspares.goes hp) ((hclock hp).trans hc) (ha.symm ▸ hdue)
      fun ho => ha.trans (hoff ho)
  | waiting he hid hw hoff =>
    have ha := h.attached_of_waits hw fun he => absurd he hown
    exact .waiting he (hstage hid rfl) (hwaits hid hw) fun ho => ha.trans (hoff ho)
  | @opening c o wake hr hid hoff hdue hwake hc =>
    have ha := hattached (h.order.turnFree (by simp [standing_client hid, Stage.standing]))
    exact .opening hr (hstage hid rfl) (ha.trans hoff) (hdue.spared hspares) hwake
      (hdue.clock_after_le hm.paced hwake hc)
  | confirming hr hid hoff hw =>
    have ha := hattached (h.order.turnFree (by simp [standing_client hid, Stage.standing]))
    exact .confirming hr (hstage hid rfl) (ha.trans hoff) (hwaits hid hw)
  | ended hover ho =>
    refine .ended (hover.after h.order m) fun hoff payload o hr ho' => ho hoff payload o hr ?_
    rw [outcome?_eq_some] at ho' ⊢
    exact hover.stage?_after h.order ho'

/-- Its own step. -/
theorem own (hu : Underway since due late off r g id) (h : Steady g) (hd : g.openDelay ≤ delay)
    (hp : g.goes (.client id) = true) (hsince : since ≤ due) (hlate : due + delay ≤ late) :
    Underway since due late off r (g.after (.resume (.client id))) id := by
  obtain ⟨k, k', hid, hf, hgoes⟩ := h.clientGoes hp
  have hsteady : Steady (g.after (.resume (.client id))) := h.after trivial
  have hclock := clock_resume g (.client id)
  have hid' : (g.after (.resume (.client id))).stage? id = some k' := by
    rw [hgoes.stage?, Function.update_self]
  have hover {o : Outcome} (hk : k' = .finished o) : Over (g.after (.resume (.client id))) id :=
    .inl ⟨o, hk ▸ hid'⟩
  have hstays (hk : k.changesOver = false) :
      (g.after (.resume (.client id))).station.attached = g.station.attached := by
    refine attached_after h.order fun other k₀ he _ hk₀ => ?_
    cases he
    cases hid.symm.trans hk₀
    exact hk
  -- where it has come to wait for the radio it does so for a slice at most
  have hwaits {e : Errand} {latest : Nat} (hk : k' = .waitingRadio e)
      (ht : (g.after (.resume (.client id))).TurnFree id)
      (hdue : (g.after (.resume (.client id))).station.attached = false ∨
        g.clock + Station.sliceTime ≤ latest)
      (hc : g.clock ≤ latest) : Waits True latest (g.after (.resume (.client id))) id := by
    rw [← hclock] at hdue hc
    exact ht.waits hsteady (hk ▸ hid') hdue hc
  have hconfirms {e : RadioError} (hk : k' = .waitingRadio (.confirm e)) (hr : r.connects = true)
      (ha : (g.after (.resume (.client id))).station.attached = false) (hc : g.clock ≤ late) :
      Underway since due late off r (g.after (.resume (.client id))) id := by
    subst hk
    refine .confirming hr hid' ha (hwaits rfl (hsteady.order.turnFree ?_) (.inl ha) hc)
    simp [standing_client hid', Stage.standing]
  cases hu with
  | arrived hid₀ halone _ hc hdue hoff =>
    cases hid.symm.trans hid₀
    have ha := hstays rfl
    cases hgoes.step with
    | refuses e =>
      refine .ended (hover rfl) fun _ payload o he => ?_
      cases he
    | queues hs hr ht =>
      have hfree :=
        halone.turn_holder h.order (by simp [standing_client hid, Stage.standing, Standing.free])
      exact .taken hs hid' (ht hfree) (hclock.trans hc) (ha.symm ▸ hdue) fun ho =>
        ha.trans (hoff ho)
    | asks hasks =>
      cases hasks with
      | send payload =>
        have hturn := (halone.after h rfl).turnFree hsteady.order
        exact .waiting (.send payload) hid'
          (hwaits rfl hturn (by rwa [ha, hc]) (hc.trans_le hsince))
          fun ho => ha.trans (hoff ho)
    | retries e hattaches => cases hattaches
    | ends o hclaim => exact absurd rfl hclaim
  | taken hs hid₀ _ hc hdue hoff =>
    cases hid.symm.trans hid₀
    have ha := hstays rfl
    have hasks {e : Errand} (hk : k' = .waitingRadio e) (he : Wants r e)
        (hturn : (Stage.waitingRadio e).standing.turn = .has) :
        Underway since due late off r (g.after (.resume (.client id))) id := by
      subst hk
      have hfree := hsteady.order.turnFree (by rwa [standing_client hid'])
      exact .waiting he hid' (hwaits rfl hfree (by rwa [ha, hc]) (hc.trans_le hsince)) fun ho =>
        ha.trans (hoff ho)
    cases hgoes.step with
    | rejects u o => exact of_connects rfl (hover rfl)
    | asks hk =>
      cases hk with
      | attach u c => exact hasks rfl (.connect u c) rfl
      | detach hr =>
        cases r with
        | connect u => exact absurd rfl (hr u)
        | disconnect => exact hasks rfl .disconnect rfl
        | send payload => exact absurd rfl (hs payload)
    | retries e hattaches => cases hattaches
    | ends o hclaim => exact absurd rfl hclaim
  | waiting he hid₀ hw hoff =>
    cases hid.symm.trans hid₀
    have hc := hw.clock
    cases hgoes.step with
    | asks hasks => cases hasks
    | opens c o hr ha hdue =>
      cases he with
      | connect u => exact .opening rfl hid' ha hdue (by omega) (by omega)
    | retries e hattaches hr ha =>
      cases he with
      | connect u => exact hconfirms rfl rfl (ha (by simp)) (by omega)
      | disconnect | send => cases hattaches
    | ends o hclaim hr ho =>
      refine .ended (hover rfl) fun hoff' payload o' hr ho' => ?_
      subst hr
      cases he
      rw [outcome?_eq_some, hid'] at ho'
      cases ho'
      rw [ho payload rfl, Station.verdict_detached h.scripted.backend (hoff hoff')]
      rfl
  | opening hr hid₀ ha hdue hwake hc =>
    cases hid.symm.trans hid₀
    cases hgoes.step with
    | asks hasks => cases hasks
    | retries e hattaches hradio ha' => exact hconfirms rfl hr (ha' fun _ _ _ => ha) hc
    | ends o => exact of_connects hr (hover rfl)
  | confirming hr hid₀ ha hw =>
    cases hid.symm.trans hid₀
    cases hgoes.step with
    | asks hasks => cases hasks
    | retries e hattaches => cases hattaches
    | ends o => exact of_connects hr (hover rfl)
  | ended hover =>
    rcases hover with ⟨o, ho⟩ | ⟨hnone, -⟩
    · cases hid.symm.trans ho
      cases hf
    · cases hid.symm.trans hnone

theorem after (hu : Underway since due late off r g id) (h : Steady g) (hd : g.openDelay ≤ delay)
    (hm : Undisturbed id delay g m) (hsince : since ≤ due) (hlate : due + delay ≤ late) :
    Underway since due late off r (g.after m) id := by
  by_cases hown : m = .resume (.client id)
  · subst hown
    cases hp : g.goes (.client id) with
    | true => exact hu.own h hd hp hsince hlate
    | false => rwa [after_resume_of_not_goes hp]
  · exact hu.others h hm hown

theorem clock_le (hu : Underway since due late off r g id) (hsince : since ≤ due)
    (hlate : due ≤ late) (hid : g.stage? id = some k) (hk : k.isFinished = false) :
    g.clock ≤ if r.connects then late else due := by
  cases hu with
  | arrived hid' halone hp hc => split <;> omega
  | taken hs hid' hp hc => split <;> omega
  | waiting he hid' hw =>
    have := hw.clock
    split <;> omega
  | opening hr hid' ha hdue hwake hc => simpa [hr] using hc
  | confirming hr hid' ha hw => simpa [hr] using hw.clock
  | ended hover =>
    rcases hover with ⟨o, ho⟩ | ⟨hnone, -⟩
    · cases hid.symm.trans ho
      cases hk
    · cases hid.symm.trans hnone

/-- A send without a driver comes to nothing. -/
theorem outcome {payload : List UInt8} {o : Outcome} (hu : Underway since due late off r g id)
    (hoff : off) (hr : r = .send (.ok payload)) (ho : g.outcome? id = some o) :
    o = .error (.driver .notConnected) := by
  have hstage := (outcome?_eq_some _ _).mp ho
  cases hu with
  | ended hover houtcome => exact houtcome hoff payload o hr ho
  | arrived hid | waiting he hid => cases hstage.symm.trans hid
  | taken hs hid | opening hr hid | confirming hr hid => cases hstage.symm.trans hid

end Underway

theorem Underway.endsBy {since late delay : Nat} {off : Prop} {r : Request}
    (hu : Underway since due late off r g id) (h : Steady g) (hd : g.openDelay ≤ delay)
    (hsince : since ≤ due) (hlate : due + delay ≤ late) (hid : g.stage? id = some k)
    (hk : k.isFinished = false) : EndsBy g id (if r.connects then late else due) := by
  have hlate' : due ≤ late := Nat.le_trans (Nat.le_add_right _ _) hlate
  let P (g : Gateway) : Prop := Steady g ∧ g.openDelay ≤ delay ∧
    Underway since due late off r g id ∧ ∃ k, g.stage? id = some k ∧ k.isFinished = false
  have hP : Lasts P id (if r.connects then late else due) := by
    refine ⟨fun g h => h.1, ?_, fun g h => h.2.2.2, ?_⟩
    · rintro g ⟨h, hd, hu, k, hid, hk⟩
      exact hu.clock_le hsince hlate' hid hk
    · rintro g m ⟨h, hd, hu, -⟩ hm hgoes
      have hm' := hm.undisturbed id delay
      exact ⟨h.after hm.paced, h.openDelay_le hd hm', hu.after h hd hm' hsince hlate, hgoes⟩
  exact hP.endsBy ⟨h, hd, hu, k, hid, hk⟩

/-- A request that waits behind those who give the radio back by then is over by then, if it is to
send. -/
theorem Waits.endsBy {payload : List UInt8} (hw : Waits again due g id) (h : Steady g)
    (hid : g.stage? id = some (.waitingRadio (.send payload))) : EndsBy g id due := by
  let P (g : Gateway) : Prop := Steady g ∧ Waits again due g id ∧
    ∃ payload, g.stage? id = some (.waitingRadio (.send payload))
  have hP : Lasts P id due := by
    refine ⟨fun g h => h.1, fun g h => h.2.1.clock, ?_, ?_⟩
    · rintro g ⟨-, -, payload, hid⟩
      exact ⟨_, hid, rfl⟩
    · rintro g m ⟨h, hw, payload, hid⟩ hm ⟨k, hid', hk⟩
      have hown : m ≠ .resume (.client id) := by
        rintro rfl
        cases hid'.symm.trans (send_ends h.prompt hm hid).1
        cases hk
      exact ⟨h.after hm.paced, h.waits_after hw hid hm.paced fun he => absurd he hown, payload,
        h.order.stage?_after hid rfl hown⟩
  exact hP.endsBy ⟨h, hw, payload, hid⟩

-- ---------------------------------------------------------------------------
-- A request that comes in
-- ---------------------------------------------------------------------------

/-- Milliseconds up to the end of a request that comes in now: a slice if there is a driver to
listen with, and for a connect the time that the opening takes. -/
def allowance (g : Gateway) (delay : Nat) (r : Request) : Nat :=
  (if g.station.attached then Station.sliceTime else 0) + if r.connects then delay else 0

section Arrival

variable {delay late : Nat} {origin : Origin} {manner : Manner} {r : Request} {more : List Move}

theorem underway_arrive (h : Steady g) (ha : Alone g g.nextId)
    (hdue : g.station.attached = false ∨ g.clock + Station.sliceTime ≤ due) :
    Underway g.clock due late (g.station.attached = false) r (g.after (.arrive origin manner r))
      g.nextId := by
  have hstage : (g.after (.arrive origin manner r)).stage? =
      update g.stage? g.nextId (some (.arrived r)) :=
    stage?_arrive g origin manner r h.order.stage?_next
  have hstation : (g.after (.arrive origin manner r)).station = g.station := by simp [Gateway.after]
  refine .arrived (by rw [hstage, Function.update_self]) (fun other k hne hk => ?_) (goes_wake _ _)
    (by simp [Gateway.after]) (by rwa [hstation]) fun hoff => by rwa [hstation]
  rw [hstage, Function.update_of_ne hne] at hk
  exact ha other k hne hk

theorem underway_through (h : Steady g) (ha : Alone g g.nextId) (hd : g.openDelay ≤ delay)
    (hdue : g.station.attached = false ∨ g.clock + Station.sliceTime ≤ due) (hsince : g.clock ≤ due)
    (hmore : Always (Undisturbed g.nextId delay) (g.after (.arrive origin manner r)) more) :
    let later := (g.after (.arrive origin manner r)).through more
    Steady later ∧ later.openDelay ≤ delay ∧
      Underway g.clock due (due + delay) (g.station.attached = false) r later g.nextId := by
  refine Always.through (P := fun g' => Steady g' ∧ g'.openDelay ≤ delay ∧
    Underway g.clock due (due + delay) (g.station.attached = false) r g' g.nextId) ?_
      ⟨?_, ?_, ?_⟩ hmore
  · rintro g' m ⟨h, hd, hu⟩ hm
    exact ⟨h.after hm.paced, h.openDelay_le hd hm, hu.after h hd hm hsince (Nat.le_refl _)⟩
  · exact h.after trivial
  · rwa [h.openDelay_after (by simp)]
  · exact underway_arrive h ha hdue

/-- A request that comes in is over when it has to be, whatever else has happened since. -/
theorem arrival_endsBy (h : Steady g) (ha : Alone g g.nextId) (hd : g.openDelay ≤ delay)
    (hmore : Always (Undisturbed g.nextId delay) (g.after (.arrive origin manner r)) more)
    (hid : ((g.after (.arrive origin manner r)).through more).stage? g.nextId = some k)
    (hk : k.isFinished = false) :
    EndsBy ((g.after (.arrive origin manner r)).through more) g.nextId
      (g.clock + g.allowance delay r) := by
  let due := g.clock + if g.station.attached then Station.sliceTime else 0
  have hdue : g.station.attached = false ∨ g.clock + Station.sliceTime ≤ due := by
    cases hattached : g.station.attached with
    | false => exact .inl rfl
    | true => exact .inr (by simp [due, hattached])
  have hsince : g.clock ≤ due := Nat.le_add_right _ _
  obtain ⟨hsteady, hd', hu⟩ := underway_through h ha hd hdue hsince hmore
  have hends := hu.endsBy hsteady hd' hsince (Nat.le_refl _) hid hk
  have hbound : (if r.connects then due + delay else due) = g.clock + g.allowance delay r := by
    simp only [due, allowance]
    split <;> omega
  rwa [hbound] at hends

theorem outcome_of_detached (h : Steady g) (ha : Alone g g.nextId)
    (hoff : g.station.attached = false) {payload : List UInt8} {o : Outcome}
    (hd : g.openDelay ≤ delay) (hmore : Always (Undisturbed g.nextId delay)
      (g.after (.arrive origin manner (.send (.ok payload)))) more)
    (ho : ((g.after (.arrive origin manner (.send (.ok payload)))).through more).outcome?
      g.nextId = some o) :
    o = .error (.driver .notConnected) :=
  (underway_through h ha hd (.inl hoff) (Nat.le_refl _) hmore).2.2.outcome hoff rfl ho

/-- A send without a driver fails at once. -/
theorem submit_detached (h : Steady g) (ha : Alone g g.nextId) (hoff : g.station.attached = false)
    (payload : List UInt8) :
    (g.submit origin manner (.send (.ok payload))).1.outcome? g.nextId =
      some (.error (.driver .notConnected)) := by
  let arrived := g.after (.arrive origin manner (.send (.ok payload)))
  have hstage : arrived.stage? g.nextId = some (.arrived (.send (.ok payload))) := by
    rw [show arrived.stage? = _ from stage?_arrive g origin manner _ h.order.stage?_next,
      Function.update_self]
  have harrived : Steady arrived := h.after trivial
  obtain ⟨-, -, moves, hbusy, hthrough⟩ := harrived.settle
  have hnothing : Always (Undisturbed g.nextId g.openDelay) arrived [] := trivial
  have hends : EndsBy arrived g.nextId (g.clock + g.allowance g.openDelay (.send (.ok payload))) :=
    arrival_endsBy h ha (Nat.le_refl _) hnothing hstage rfl
  have hclock : arrived.clock = g.clock := by simp [arrived, Gateway.after]
  have hout := (hends.awaited 0 (by simp [allowance, hoff, Request.connects, hclock])).1
  rw [awaitWithin_zero] at hout
  obtain ⟨o, ho⟩ := Option.isSome_iff_exists.mp hout
  have hsub : (g.submit origin manner (.send (.ok payload))).1 = arrived.settle := rfl
  rw [hsub, ho]
  rw [← hthrough] at ho
  exact congrArg some (outcome_of_detached h ha hoff (Nat.le_refl _)
    (hbusy.mono fun g' m hm => hm.undisturbed g.nextId g.openDelay) ho)

end Arrival

-- ---------------------------------------------------------------------------
-- Sends that wait for the end of a slice
-- ---------------------------------------------------------------------------

def ListenerStage.listens : ListenerStage → Bool
  | .listening _ _ => true
  | _ => false

def ListenerStage.asks : ListenerStage → Bool
  | .waitingRadio _ _ => true
  | _ => false

/-- The loop listens, and does so up to `due`. -/
def ListensUntil (g : Gateway) (id due : Nat) : Prop :=
  (∃ l, g.listener? id = some l ∧ l.stage.listens = true) ∧ Due g (.listener id) due ∧ g.clock ≤ due

/-- The loop has been given the radio, and listens from its next step on. -/
def AboutToListen (g : Gateway) (id : Nat) : Prop :=
  (∃ l, g.listener? id = some l ∧ l.stage.asks = true) ∧ g.goes (.listener id) = true

/-- Of those who waited for the radio at first the sends `done` are over, and `rest` are the first
who wait, before the loop listens again. -/
structure Queued (due : Nat) (asked : List (Nat × List UInt8)) (g : Gateway)
    (done rest : List (Nat × List UInt8)) : Prop where
  asked : asked = done ++ rest
  waiting : rest <+: g.pending
  ended : ∀ x ∈ done, Over g x.1
  inTime : ∀ x ∈ rest, Waits False due g x.1

/-- Nobody but the loop that listens and those who are to send is before a send when nobody has the
turn. -/
theorem queued_of_listens {l : Nat} (h : Steady g) (ha : Alone g g.nextId)
    (hl : ListensUntil g l due) : Queued due g.pending g [] g.pending := by
  obtain ⟨⟨⟨t, k⟩, hlistens, hk⟩, hdue, hc⟩ := hl
  have hradio := h.order.orderly.radio
  refine ⟨rfl, List.prefix_refl _, by simp, fun x hx => ⟨?_, hc⟩⟩
  have hid := stage?_of_mem_pending hx
  have hclaim : (g.standing (.client x.1)).radio ≠ .none := by
    simp [standing_client hid, Stage.standing]
  refine .of_mem ((hradio.mem _).mpr hclaim) hradio.nodup fun q hq hne => ?_
  cases q with
  | client other =>
    have hmem := (hradio.mem _).mp hq
    have hother : other ≠ g.nextId := by
      rintro rfl
      simp [standing, h.order.stage?_next, Standing.gone] at hmem
    exact (ha.turnFree h.order).sends_of_mem h hq hother
  | listener other =>
    have hmem := (hradio.mem _).mp hq
    have hthere : g.listener? other ≠ none := fun hn => by
      simp [standing, hn, Standing.gone] at hmem
    obtain rfl := h.single other l hthere (by simp [hlistens])
    refine ⟨t, k, hlistens, ?_⟩
    cases k with
    | listening => exact ⟨due, Nat.le_refl _, hdue⟩
    | _ => cases hk

theorem Queued.after {asked done rest : List (Nat × List UInt8)} (hq : Queued due asked g done rest)
    (h : Steady g) (hm : Paced g m) : ∃ done rest, Queued due asked (g.after m) done rest := by
  -- who still waits after the move has not gone on
  have hkept {x : Nat × List UInt8} (hx : x ∈ rest) (hx' : x ∈ (g.after m).pending) :
      Waits False due (g.after m) x.1 := by
    have hid := stage?_of_mem_pending (hq.waiting.subset hx)
    refine h.waits_after (hq.inTime x hx) hid hm fun he => ?_
    subst he
    by_contra hp
    have hended := (send_ends h.prompt (by simpa using hp) hid).1
    cases hended.symm.trans (stage?_of_mem_pending hx')
  have hover (x : Nat × List UInt8) (hx : x ∈ done) : Over (g.after m) x.1 :=
    (hq.ended x hx).after h.order m
  cases h.prompt.dispatches h.order m with
  | waits hp =>
    have hfront : rest <+: (g.after m).pending := hp ▸ hq.waiting.trans (List.prefix_append _ _)
    exact ⟨done, rest, hq.asked, hfront, hover, fun x hx => hkept hx (hfront.subset hx)⟩
  | @serves id payload hasks hp hid =>
    cases rest with
    | nil => exact ⟨done, [], hq.asked, List.nil_prefix, hover, by simp⟩
    | cons x rest =>
      have hwaiting := hq.waiting
      rw [hp, List.cons_prefix_cons] at hwaiting
      obtain ⟨rfl, hfront⟩ := hwaiting
      refine ⟨done ++ [(id, payload)], rest, by simp [hq.asked], hfront,
        fun y hy => ?_, fun y hy => ?_⟩
      · rcases List.mem_append.mp hy with hy | hy
        · exact hover y hy
        · obtain rfl := List.mem_singleton.mp hy
          exact .inl ⟨_, hid⟩
      · exact hkept (List.mem_cons_of_mem _ hy) (hfront.subset hy)

theorem Queued.rest_eq_nil {asked done rest : List (Nat × List UInt8)} {l : Nat}
    (hq : Queued due asked g done rest) (h : Steady g) (hl : AboutToListen g l) : rest = [] := by
  obtain ⟨⟨⟨t, k⟩, hl, hasks⟩, hp⟩ := hl
  cases k with
  | waitingRadio deadline slice =>
    have hheld : g.radio.holder = some (.listener l) :=
      h.order.holds_radio hp (by simp [standing_listener hl, ListenerStage.standing])
    refine List.eq_nil_iff_forall_not_mem.mpr fun x hx => ?_
    obtain ⟨t', k, hid, hk⟩ := (hq.inTime x hx).brief hheld (by simp)
    cases hl.symm.trans hid
    exact hk.1
  | _ => cases hasks

-- ---------------------------------------------------------------------------
-- One slice
-- ---------------------------------------------------------------------------

/-- In a paced run with the scripted radio, where time goes by only when nobody can go on, nobody
waits for the radio longer than a slice, whatever is to be received and however long the loop waits
for a packet.

A request that comes in while no connect or disconnect is on its way is over within a slice, and a
connect within as much more as the opening takes. That holds whatever comes in afterwards, if nobody
else connects or disconnects before the request has been taken up. If there is no driver a request
does not wait for a slice at all, and a send fails at once. And the sends that wait while the loop
listens are over one after another, in the order in which they asked, by the end of the slice and
before the loop listens again. -/
theorem radio_within_a_slice {bench : Bench} {capacity epoch : Nat} {moves : List Move}
    (hm : Always Paced (start (.hardware .scripted) bench capacity epoch) moves) :
    let g := (start (.hardware .scripted) bench capacity epoch).through moves
    Alone g g.nextId →
      (∀ delay, g.openDelay ≤ delay → ∀ origin manner r more,
        Always (Undisturbed g.nextId delay) (g.after (.arrive origin manner r)) more →
        let later := (g.after (.arrive origin manner r)).through more
        (∀ k, later.stage? g.nextId = some k → k.isFinished = false →
          EndsBy later g.nextId (g.clock + g.allowance delay r)) ∧
        ∀ payload o, g.station.attached = false → r = .send (.ok payload) →
          later.outcome? g.nextId = some o → o = .error (.driver .notConnected)) ∧
      (g.station.attached = false → ∀ origin manner payload,
        (g.submit origin manner (.send (.ok payload))).1.outcome? g.nextId =
          some (.error (.driver .notConnected))) ∧
      ∀ l due, ListensUntil g l due → ∀ more, Always Paced g more →
        let later := g.through more
        ∃ done rest, g.pending = done ++ rest ∧ rest <+: later.pending ∧
          (∀ x ∈ done, Over later x.1) ∧ (∀ x ∈ rest, EndsBy later x.1 due) ∧
          ∀ l', AboutToListen later l' → rest = [] := by
  intro g ha
  have hg : Steady g := steady_through hm
  refine ⟨fun delay hd origin manner r more hmore => ⟨fun k hid hk => ?_,
    fun payload o hoff hr ho => ?_⟩, fun hoff origin manner payload => submit_detached hg ha hoff
      payload, fun l due hl more hmore => ?_⟩
  · exact arrival_endsBy hg ha hd hmore hid hk
  · subst hr
    exact outcome_of_detached hg ha hoff hd hmore ho
  · intro later
    obtain ⟨hsteady, done, rest, hq⟩ : Steady later ∧ ∃ done rest,
        Queued due g.pending later done rest := by
      refine hmore.through (P := fun g' => Steady g' ∧ ∃ done rest,
        Queued due g.pending g' done rest) ?_ ⟨hg, [], g.pending, queued_of_listens hg ha hl⟩
      rintro g' m ⟨h, done, rest, hq⟩ hm
      exact ⟨h.after hm, hq.after h hm⟩
    refine ⟨done, rest, hq.asked, hq.waiting, hq.ended, fun x hx => ?_,
      fun l' hl' => hq.rest_eq_nil hsteady hl'⟩
    exact (hq.inTime x hx).endsBy hsteady (stage?_of_mem_pending (hq.waiting.subset hx))

/-- While a loop listens, 20 milliseconds after it has begun to, two sends come to wait for it. A
disconnect that comes in then is over within a slice, and the sends are over when the loop is about
to listen again. -/
theorem radio_within_a_slice_listening :
    let g₀ := start (.hardware .scripted) { board := { chip := Chip.fresh Chip.chipVersion } } 8 0
    let moves : List Move :=
      [.arrive .direct .background (.connect {}), .resume (.client 0), .resume (.client 0),
        .resume (.client 0), .enlist {}, .resume (.listener 1), .resume (.listener 1),
        .resume (.listener 1), .elapse 20,
        .arrive .direct .background (.send (.ok [0x61])), .resume (.client 2),
        .arrive .direct .background (.send (.ok [0x62])), .resume (.client 3)]
    let more : List Move :=
      [.elapse 30, .resume (.listener 1), .resume (.client 2), .resume (.client 3),
        .resume (.listener 1)]
    let g := g₀.through moves
    Always Paced g₀ moves ∧ Alone g g.nextId ∧ ListensUntil g 1 50 ∧
      g.pending = [(2, [0x61]), (3, [0x62])] ∧
      EndsBy (g.after (.arrive .direct .background .disconnect)) 4 70 ∧
      Always Paced g more ∧ AboutToListen (g.through more) 1 ∧ Over (g.through more) 2 ∧
      Over (g.through more) 3 := by
  intro g₀ moves more g
  have hmoves : Always Paced g₀ moves := by decide +kernel
  have halone : Alone g g.nextId := by decide +kernel
  have hlistens : ListensUntil g 1 50 :=
    ⟨(Option.any_eq_true _ _).mp (by decide +kernel), .inl (by decide +kernel), by decide +kernel⟩
  have hpending : g.pending = [(2, [0x61]), (3, [0x62])] := by decide +kernel
  have hmore : Always Paced g more := by decide +kernel
  have habout : AboutToListen (g.through more) 1 :=
    ⟨(Option.any_eq_true _ _).mp (by decide +kernel), by decide +kernel⟩
  obtain ⟨hrequest, -, hqueue⟩ := radio_within_a_slice hmoves halone
  have hstage : ((g.after (.arrive .direct .background .disconnect)).stage? g.nextId).any
      (fun k => !k.isFinished) = true := by decide +kernel
  obtain ⟨k, hk, hf⟩ := (Option.any_eq_true _ _).mp hstage
  have hends := (hrequest 0 (by decide +kernel) .direct .background .disconnect [] trivial).1 k
    (by rw [through_nil]; exact hk) (by simpa using hf)
  rw [through_nil] at hends
  have hid : g.nextId = 4 := by decide +kernel
  have hdue : g.clock + g.allowance 0 .disconnect = 70 := by decide +kernel
  rw [hid, hdue] at hends
  obtain ⟨done, rest, hasked, -, hover, -, hempty⟩ := hqueue 1 50 hlistens more hmore
  obtain rfl := hempty 1 habout
  rw [List.append_nil] at hasked
  rw [← hasked, hpending] at hover
  exact ⟨hmoves, halone, hlistens, hpending, hends, hmore, habout, hover (2, [0x61]) (by simp),
    hover (3, [0x62]) (by simp)⟩

end RadioGateway.Gateway
