import RadioGateway.Proofs.Bystanders
import RadioGateway.Proofs.Progress

/-!
# Who is served before a request that waits

Whoever has asked for the radio is served in turn, so a request that waits for it waits for those
who have asked before, and for nobody who asks later. With the scripted radio a send gives the radio
back with the step it has it for, and a loop does so at the end of its slice. `Waits` says that all
who come first give the radio back by a moment; every move keeps that up, whatever comes in
meanwhile.
-/

namespace RadioGateway.Gateway

-- ---------------------------------------------------------------------------
-- Those who are served before
-- ---------------------------------------------------------------------------

/-- Whoever is served before `p` is in `P`. -/
def Lock.Behind (l : Lock) (p : Party) (P : Party → Prop) : Prop :=
  ∃ before after, l.parties = before ++ p :: after ∧ ∀ q ∈ before, P q

namespace Lock.Behind

variable {l l' : Lock} {p q : Party} {P P' : Party → Prop}

theorem of_mem (hp : p ∈ l.parties) (hnd : l.parties.Nodup) (h : ∀ q ∈ l.parties, q ≠ p → P q) :
    l.Behind p P := by
  obtain ⟨before, after, hparties⟩ := List.append_of_mem hp
  rw [hparties] at hnd
  refine ⟨before, after, hparties, fun q hq => h q (hparties ▸ List.mem_append_left _ hq) ?_⟩
  rintro rfl
  exact (List.nodup_append.mp hnd).2.2 _ hq _ List.mem_cons_self rfl

theorem mono (h : l.Behind p P) (hl : l'.parties = l.parties) (hP : ∀ q, P q → P' q) :
    l'.Behind p P' := by
  obtain ⟨before, after, hp, hb⟩ := h
  exact ⟨before, after, hl.trans hp, fun q hq => hP q (hb q hq)⟩

theorem acquire (h : l.Behind p P) (hs : l.Sound) (q : Party) (hP : ∀ q, P q → P' q) :
    (l.acquire q).1.Behind p P' := by
  obtain ⟨before, after, hp, hb⟩ := h
  exact ⟨before, after ++ [q], by simp [parties_acquire q hs, hp], fun q hq => hP q (hb q hq)⟩

/-- Whoever leaves the queue is no longer served before anybody. -/
theorem leave (h : l.Behind p P) (hnd : l.parties.Nodup) (hl : l'.parties = l.parties.erase q)
    (hne : q ≠ p) (hP : ∀ x ≠ q, P x → P' x) : l'.Behind p P' := by
  obtain ⟨before, after, hp, hb⟩ := h
  rw [hp] at hl hnd
  have hbefore : before.Nodup := (List.nodup_append.mp hnd).1
  by_cases hq : q ∈ before
  · refine ⟨before.erase q, after, by rw [hl, List.erase_append_left _ hq], fun x hx => ?_⟩
    obtain ⟨hxq, hx'⟩ := hbefore.mem_erase_iff.mp hx
    exact hP x hxq (hb x hx')
  · refine ⟨before, after.erase q, ?_, fun x hx => hP x (fun he => hq (he ▸ hx)) (hb x hx)⟩
    rw [hl, List.erase_append_right _ hq, List.erase_cons_tail (by simpa using hne.symm)]

end Lock.Behind

theorem Lock.holder_of_parties {l : Lock} {p : Party} {rest : List Party} (hs : l.Sound)
    (h : l.parties = p :: rest) : l.holder = some p := by
  cases hh : l.holder with
  | none => simp [Lock.parties, hh, hs hh] at h
  | some q =>
    rw [Lock.parties_eq_cons hh] at h
    rw [(List.cons.inj h).1]

theorem Lock.parties_release_erase {l : Lock} {p : Party} (h : l.holder = some p) :
    l.release.1.parties = l.parties.erase p := by
  rw [parties_eq_cons h, List.erase_cons_head]

variable {again : Prop} {g : Gateway} {id due : Nat} {p q : Party} {m : Move} {k : Stage}

-- ---------------------------------------------------------------------------
-- Who gives the radio back in time
-- ---------------------------------------------------------------------------

/-- A party that has the radio or waits for it, and gives it back by `due` as far as it is up to it:
a send, a loop that listens up to then at the latest, or, if that is possible `again`, a loop whose
next slice ends by then, or goes by without the radio. -/
def Brief (again : Prop) (due : Nat) (g : Gateway) : Party → Prop
  | .client id => ∃ payload, g.stage? id = some (.waitingRadio (.send payload))
  | .listener id => ∃ t k, g.listener? id = some ⟨t, k⟩ ∧
    match k with
    | .listening _ _ => ∃ wake ≤ due, Due g (.listener id) wake
    | .waitingRadio _ slice => again ∧ (g.station.attached = false ∨ g.clock + slice ≤ due)
    | _ => False

/-- The request waits for the radio behind parties that give it back by `due`. -/
structure Waits (again : Prop) (due : Nat) (g : Gateway) (id : Nat) : Prop where
  behind : g.radio.Behind (.client id) (Brief again due g)
  clock : g.clock ≤ due

/-- A party stays brief at a move that is not its own, if no time goes by. -/
theorem Brief.after (h : Brief again due g q) (hs : Steady g)
    (hown : m = .resume q → g.goes q = false) (hd : ∀ id, q = .listener id → m ≠ .dismiss id)
    (ha : (g.after m).station.attached = g.station.attached) (hc : (g.after m).clock = g.clock) :
    Brief again due (g.after m) q := by
  cases q with
  | client id =>
    obtain ⟨payload, hid⟩ := h
    refine ⟨payload, ?_⟩
    by_cases hm : m = .resume (.client id)
    · subst hm
      rw [after_resume_of_not_goes (hown rfl), hid]
    · exact hs.order.stage?_after hid rfl hm
  | listener id =>
    obtain ⟨t, k, hid, hk⟩ := h
    obtain ⟨k', hid', ⟨rfl, hspares⟩ | ⟨he, hp, -⟩⟩ := listener?_after hs.order hid (hd id rfl)
    · refine ⟨t, k', hid', ?_⟩
      cases k' with
      | listening deadline l =>
        obtain ⟨wake, hle, hdue⟩ := hk
        exact ⟨wake, hle, hdue.spared hspares⟩
      | waitingRadio deadline slice =>
        rw [ha, hc]
        exact hk
      | _ => exact hk
    · cases hp.symm.trans (hown he)

-- ---------------------------------------------------------------------------
-- While nobody else has the turn
-- ---------------------------------------------------------------------------

/-- Nobody has the turn but perhaps the client. -/
def TurnFree (g : Gateway) (id : Nat) : Prop := ∀ p, g.turn.holder = some p → p = .client id

theorem InOrder.turnFree (h : InOrder g) (ht : (g.standing (.client id)).turn = .has) :
    g.TurnFree id := by
  intro p hp
  exact Option.some.inj (hp.symm.trans (h.orderly.turn.held _ ht))

/-- Whoever changes over to another driver has the turn. -/
theorem Stage.turn_of_changesOver (hk : k.changesOver = true) : k.standing.turn = .has := by
  cases k with
  | waitingRadio e => cases e <;> first | rfl | cases hk
  | opening => rfl
  | _ => cases hk

namespace TurnFree

theorem attached_after (ht : g.TurnFree id) (ho : InOrder g) (hm : m ≠ .resume (.client id)) :
    (g.after m).station.attached = g.station.attached := by
  refine Gateway.attached_after ho fun other k he hp hk => ?_
  by_contra hchanges
  have hheld := ho.orderly.turn.held (.client other) (by
    simpa [standing_client hk] using Stage.turn_of_changesOver (by simpa using hchanges))
  obtain rfl := Party.client.inj (ht _ hheld)
  exact hm he

/-- Every other client that has the radio or waits for it is to send. -/
theorem sends_of_mem {other : Nat} (ht : g.TurnFree id) (h : Steady g)
    (hq : .client other ∈ g.radio.parties) (hne : other ≠ id) :
    ∃ payload, g.stage? other = some (.waitingRadio (.send payload)) := by
  have hclaim : (g.standing (.client other)).radio ≠ .none := (h.order.orderly.radio.mem _).mp hq
  have hturn : (g.standing (.client other)).turn ≠ .has := fun hc =>
    hne (Party.client.inj (ht _ (h.order.orderly.turn.held _ hc)))
  cases hother : g.stage? other with
  | none => simp [standing, hother, Standing.gone] at hclaim
  | some k =>
    rw [standing_client hother] at hclaim hturn
    cases k with
    | waitingRadio e =>
      cases e with
      | send payload => exact ⟨payload, rfl⟩
      | attach | confirm | detach => exact absurd rfl hturn
    | transmitting length looks => exact absurd hother (h.prompt.stage other length looks)
    | arrived | waitingTurn | finished => exact absurd rfl hclaim
    | opening => exact absurd rfl hturn

/-- Everybody else who has the radio or waits for it gives it back within a slice, and at once when
there is no driver. -/
theorem brief (ht : g.TurnFree id) (h : Steady g)
    (hdue : g.station.attached = false ∨ g.clock + Station.sliceTime ≤ due)
    (hq : q ∈ g.radio.parties) (hne : q ≠ .client id) : Brief True due g q := by
  cases q with
  | client other => exact ht.sends_of_mem h hq fun he => hne (he ▸ rfl)
  | listener l =>
    have hclaim : (g.standing (.listener l)).radio ≠ .none := (h.order.orderly.radio.mem _).mp hq
    cases hl : g.listener? l with
    | none => simp [standing, hl, Standing.gone] at hclaim
    | some l' =>
      obtain ⟨t, k⟩ := l'
      obtain ⟨-, hin⟩ := h.loop l t k hl
      rw [standing_listener hl] at hclaim
      refine ⟨t, k, hl, ?_⟩
      cases k with
      | waitingRadio deadline slice =>
        exact ⟨trivial, hdue.imp_right fun hle => Nat.le_trans (Nat.add_le_add_left hin.2 _) hle⟩
      | listening deadline s =>
        obtain ⟨ha, wake, hle, hwake⟩ := hin
        exact ⟨wake, Nat.le_trans hle (hdue.resolve_left (by simp [ha])), hwake⟩
      | _ => simp [ListenerStage.standing, Standing.free] at hclaim

/-- Whoever waits for the radio waits for a slice at most. -/
theorem waits {e : Errand} (ht : g.TurnFree id) (h : Steady g)
    (hid : g.stage? id = some (.waitingRadio e))
    (hdue : g.station.attached = false ∨ g.clock + Station.sliceTime ≤ due) (hc : g.clock ≤ due) :
    Waits True due g id := by
  have hclaim : (g.standing (.client id)).radio ≠ .none := by
    rw [standing_client hid]
    cases e <;> simp [Stage.standing]
  have hradio := h.order.orderly.radio
  exact ⟨.of_mem ((hradio.mem _).mpr hclaim) hradio.nodup
    fun q hq hne => ht.brief h hdue hq hne, hc⟩

end TurnFree

/-- All requests but that one are sends, or over. -/
def Alone (g : Gateway) (id : Nat) : Prop :=
  ∀ other k, other ≠ id → g.stage? other = some k → k.sends = true ∨ k.isFinished = true

instance (g : Gateway) (id : Nat) : Decidable (Alone g id) :=
  decidable_of_iff
    (∀ c ∈ g.clients, c.1 = id ∨ (g.stage? c.1).all (fun k => k.sends || k.isFinished) = true) <| by
    refine ⟨fun h other k hne hk => ?_, fun h c hc => ?_⟩
    · obtain ⟨c, hc, rfl⟩ := Option.map_eq_some_iff.mp hk
      obtain ⟨before, after, hclients, -⟩ := List.lookup_eq_some_iff.mp hc
      have hall := (h (other, c) (by simp [hclients])).resolve_left hne
      simpa [hk] using hall
    · refine or_iff_not_imp_left.mpr fun hne => ?_
      cases hk : g.stage? c.1 with
      | none => rfl
      | some k => simpa using h c.1 k hne hk

namespace Alone

theorem turnFree (h : Alone g id) (ho : InOrder g) : g.TurnFree id := by
  intro p hp
  have hclaim := (ho.orderly.turn.mem p).mp (Lock.mem_parties_of_holder hp)
  cases p with
  | listener l =>
    refine absurd ?_ hclaim
    cases hl : g.listener? l with
    | none => simp [standing, hl, Standing.gone]
    | some l' =>
      simp only [Function.comp_apply, standing_listener hl]
      cases l'.stage <;> rfl
  | client other =>
    by_contra hne
    refine absurd ?_ hclaim
    cases hother : g.stage? other with
    | none => simp [standing, hother, Standing.gone]
    | some k =>
      simp only [Function.comp_apply, standing_client hother]
      rcases h other k (fun he => hne (he ▸ rfl)) hother with hs | hf
      · cases k with
        | waitingRadio e => cases e <;> first | rfl | cases hs
        | arrived | transmitting => rfl
        | waitingTurn | opening | finished => cases hs
      · cases k with
        | finished => rfl
        | _ => cases hf

/-- Nobody has the turn when the client has not asked for it either. -/
theorem turn_holder (h : Alone g id) (ho : InOrder g)
    (hid : (g.standing (.client id)).turn = .none) : g.turn.holder = none := by
  cases hp : g.turn.holder with
  | none => rfl
  | some p =>
    obtain rfl := h.turnFree ho p hp
    exact absurd hid ((ho.orderly.turn.mem _).mp (Lock.mem_parties_of_holder hp))

end Alone

/-- Whether a connect or a disconnect comes in. -/
def Move.intrudes : Move → Bool
  | .arrive _ _ (.connect _) | .arrive _ _ .disconnect => true
  | _ => false

theorem Stage.not_sends_of_attaches (hk : k.attaches = true) : k.sends = false := by
  cases k with
  | waitingRadio e => cases e <;> first | rfl | cases hk
  | opening => rfl
  | _ => cases hk

/-- All other requests stay sends while nobody else connects or disconnects. -/
theorem Alone.after (ha : Alone g id) (h : Steady g) (hm : m.intrudes = false) :
    Alone (g.after m) id := by
  intro other k hne hk
  rcases h.order.stage?_of_after hk with hbefore | ⟨-, origin, manner, r, rfl, rfl⟩ | ⟨rfl, hp⟩
  · exact ha other k hne hbefore
  · cases r with
    | send payload => exact .inl rfl
    | connect | disconnect => cases hm
  · obtain ⟨k₀, k', hk₀, hf, hgoes⟩ := h.clientGoes hp
    have hsends : k₀.sends = true := (ha other k₀ hne hk₀).resolve_right (by simp [hf])
    rw [hgoes.stage?, Function.update_self] at hk
    cases hk
    cases hgoes.step with
    | refuses | ends => exact .inr rfl
    | asks hasks =>
      cases hasks with
      | send payload => exact .inl rfl
      | attach | detach => cases hsends
    | @queues r hs =>
      cases r with
      | send payload => exact absurd rfl (hs payload)
      | connect | disconnect => cases hsends
    | rejects | opens => cases hsends
    | retries e hattaches =>
      rw [Stage.not_sends_of_attaches hattaches] at hsends
      cases hsends

-- ---------------------------------------------------------------------------
-- Nobody gets in before a request that waits
-- ---------------------------------------------------------------------------

/-- Whoever has the radio that a request waits for gives it back in time. -/
theorem Waits.brief (hw : Waits again due g id) (hp : g.radio.holder = some p)
    (hne : p ≠ .client id) : Brief again due g p := by
  obtain ⟨before, after, hparties, hbrief⟩ := hw.behind
  rw [Lock.parties_eq_cons hp] at hparties
  cases before with
  | nil => exact absurd (List.cons.inj hparties).1 hne
  | cons q before =>
    obtain rfl := (List.cons.inj hparties).1
    exact hbrief _ List.mem_cons_self

/-- Nobody has to do with the radio who does not go on once it is granted. -/
theorem active_of_radio (hr : (g.standing p).radio ≠ .none) : (g.standing p).active = true := by
  cases p with
  | client id =>
    cases hid : g.stage? id with
    | none => simp [standing, hid, Standing.gone] at hr
    | some k =>
      rw [standing_client hid] at hr ⊢
      cases k with
      | finished o => simp [Stage.standing, Standing.gone] at hr
      | waitingRadio e => cases e <;> rfl
      | _ => rfl
  | listener id =>
    cases hid : g.listener? id with
    | none => simp [standing, hid, Standing.gone] at hr
    | some l =>
      rw [standing_listener hid]
      cases l.stage <;> rfl

namespace Steady

/-- Whoever has the radio while nobody goes on sleeps. -/
theorem holder_asleep (h : Steady g) (hq : g.isQuiet = true) (hp : g.radio.holder = some p) :
    ∃ wake, (wake, p) ∈ g.asleep := by
  have hclaim : (g.standing p).radio ≠ .none :=
    (h.order.orderly.radio.mem p).mp (Lock.mem_parties_of_holder hp)
  have hactive := active_of_radio hclaim
  have hawake : p ∈ g.awake := by
    refine (h.order.orderly.mem p).mpr ⟨hactive, fun ht => ?_, fun _ => hp⟩
    cases hc : (g.standing p).turn with
    | none => exact absurd hc ht
    | wants => exact absurd (h.order.orderly.wantsTurn p hc).2 hclaim
    | has => exact h.order.orderly.turn.held p hc
  have hempty : g.ready = [] ∧ g.yielding = [] := by simpa [isQuiet] using hq
  rw [awake, hempty.1, hempty.2] at hawake
  simpa using hawake

/-- Time does not go by beyond the end of the slice that a request waits for. -/
theorem waits_elapse {e : Errand} {ms : Nat} (h : Steady g) (hw : Waits again due g id)
    (hid : g.stage? id = some (.waitingRadio e)) (hm : Paced g (.elapse ms)) :
    Waits again due (g.after (.elapse ms)) id := by
  obtain ⟨before, after, hparties, hbrief⟩ := hw.behind
  -- a client that has the radio would not sleep
  have hclient {other : Nat} {e : Errand} (hother : g.stage? other = some (.waitingRadio e)) :
      g.radio.holder ≠ some (.client other) := by
    intro hh
    obtain ⟨wake, hs⟩ := h.holder_asleep hm.1 hh
    obtain ⟨c, o, hopening⟩ := h.sleeper wake _ hs
    cases hother.symm.trans hopening
  have hsound : g.radio.Sound := h.order.orderly.radio.sound
  cases before with
  | nil => exact absurd (Lock.holder_of_parties hsound hparties) (hclient hid)
  | cons q rest =>
    have hheld : g.radio.holder = some q := Lock.holder_of_parties hsound hparties
    have hq := hbrief q List.mem_cons_self
    cases q with
    | client other =>
      obtain ⟨payload, hother⟩ := hq
      exact absurd hheld (hclient hother)
    | listener l =>
      -- the loop that is there listens, and wakes by then
      obtain ⟨t, k, hl, hk⟩ := hq
      obtain ⟨wake, hs⟩ := h.holder_asleep hm.1 hheld
      obtain ⟨l', hl', hsleeps⟩ := h.sleeper wake _ hs
      cases hl.symm.trans hl'
      cases k with
      | listening deadline s =>
        obtain ⟨wake', hle, hdue⟩ := hk
        have hc := Nat.le_of_lt (hdue.clock_lt hm.1)
        refine ⟨⟨_, after, hparties, fun x hx => ?_⟩,
          hdue.clock_after_le hm hle (Nat.le_trans hc hle)⟩
        have hx' := hbrief x hx
        cases x with
        | client other => exact hx'
        | listener other =>
          obtain ⟨t', k', hother, hk'⟩ := hx'
          cases h.single other l (by simp [hother]) (by simp [hl])
          cases hl.symm.trans hother
          exact ⟨t, _, hl, wake', hle, hdue.spared (spares_elapse g _ ms)⟩
      | waitingRadio => cases hsleeps
      | _ => exact absurd hk (by simp)

/-- A client that goes on with the radio while a request waits for it has the radio to send. -/
theorem sends_of_waits {other : Nat} (h : Steady g) (hw : Waits again due g id) (hne : other ≠ id)
    (hp : g.goes (.client other) = true) (hk : g.stage? other = some k)
    (hclaim : k.standing.radio ≠ .none) :
    g.radio.holder = some (.client other) ∧ ∃ payload, k = .waitingRadio (.send payload) := by
  have hheld : g.radio.holder = some (.client other) :=
    h.order.holds_radio hp (by rw [standing_client hk]; exact hclaim)
  obtain ⟨payload, hid⟩ := hw.brief hheld (by simpa using hne)
  exact ⟨hheld, payload, Option.some.inj (hk.symm.trans hid)⟩

/-- Nobody changes over to another driver before it has its turn. -/
theorem attached_of_waits (h : Steady g) (hw : Waits again due g id)
    (hown : m = .resume (.client id) → g.goes (.client id) = false) :
    (g.after m).station.attached = g.station.attached := by
  refine attached_after h.order fun other k he hp hk => ?_
  have hne : other ≠ id := by
    rintro rfl
    cases hp.symm.trans (hown he)
  by_contra hchanges
  obtain ⟨-, payload, rfl⟩ :=
    h.sends_of_waits hw hne hp hk (Stage.radio_of_changesOver (by simpa using hchanges))
  exact hchanges rfl

/-- A step of another client: it asks for the radio behind all others, or it has sent and gives it
back. -/
theorem waits_client {other : Nat} (h : Steady g) (hw : Waits again due g id) (hne : other ≠ id)
    (hp : g.goes (.client other) = true)
    (hkept : ∀ q ≠ .client other, Brief again due g q →
      Brief again due (g.after (.resume (.client other))) q) :
    (g.after (.resume (.client other))).radio.Behind (.client id)
      (Brief again due (g.after (.resume (.client other)))) := by
  have hradio := h.order.orderly.radio
  obtain ⟨k, k', hk, -, hgoes⟩ := h.clientGoes hp
  have hall (hno : k.standing.radio = .none) (q : Party) (hq : Brief again due g q) :
      Brief again due (g.after (.resume (.client other))) q := by
    refine hkept q ?_ hq
    rintro rfl
    obtain ⟨payload, hid⟩ := hq
    cases hk.symm.trans hid
    cases hno
  have hsends := h.sends_of_waits hw hne hp hk
  cases hgoes.step with
  | refuses e hr => exact hw.behind.mono (by rw [hr]) (hall rfl)
  | queues hs hr => exact hw.behind.mono (by rw [hr]) (hall rfl)
  | rejects u o hr => exact hw.behind.mono (by rw [hr]) (hall rfl)
  | asks hasks hr =>
    rw [hr]
    exact hw.behind.acquire hradio.sound _ (hall (by cases hasks <;> rfl))
  | ends o hclaim hr =>
    have hheld := (hsends hclaim).1
    exact hw.behind.leave hradio.nodup (by rw [hr, Lock.parties_release_erase hheld])
      (by simpa using hne) hkept
  | opens => obtain ⟨-, payload, ⟨⟩⟩ := hsends (by simp [Stage.standing])
  | retries e hattaches =>
    obtain ⟨-, payload, rfl⟩ := hsends (Stage.radio_of_attaches hattaches)
    cases hattaches

/-- A step of a loop: it asks for the radio behind all others, listens with the radio that it has
been given, or gives it back. -/
theorem waits_listener {l : Nat} (h : Steady g) (hw : Waits again due g id)
    (hp : g.goes (.listener l) = true)
    (ha : (g.after (.resume (.listener l))).station.attached = g.station.attached)
    (hkept : ∀ q ≠ .listener l, Brief again due g q →
      Brief again due (g.after (.resume (.listener l))) q) :
    (g.after (.resume (.listener l))).radio.Behind (.client id)
      (Brief again due (g.after (.resume (.listener l)))) := by
  have hradio := h.order.orderly.radio
  obtain ⟨⟨t, k⟩, hl⟩ := h.order.listener?_of_goes hp
  obtain ⟨k', hgoes⟩ := h.loopGoes hp hl
  have hall (hno : k.standing.radio = .none) (q : Party) (hq : Brief again due g q) :
      Brief again due (g.after (.resume (.listener l))) q := by
    refine hkept q ?_ hq
    rintro rfl
    obtain ⟨t', k₀, hl', hk⟩ := hq
    cases hl.symm.trans hl'
    cases k with
    | waitingRadio | listening => cases hno
    | _ => exact hk
  have hleave (hclaim : k.standing.radio ≠ .none)
      (hr : (g.after (.resume (.listener l))).radio = g.radio.release.1) :
      (g.after (.resume (.listener l))).radio.Behind (.client id)
        (Brief again due (g.after (.resume (.listener l)))) := by
    have hheld : g.radio.holder = some (.listener l) :=
      h.order.holds_radio hp (by rw [standing_listener hl]; exact hclaim)
    exact hw.behind.leave hradio.nodup (by rw [hr, Lock.parties_release_erase hheld])
      (by simp) hkept
  cases hgoes.step with
  | begins hk hr =>
    exact hw.behind.mono (by rw [hr]) (hall (by rcases hk with rfl | rfl | rfl <;> rfl))
  | expires hk hd hr =>
    exact hw.behind.mono (by rw [hr]) (hall (by rcases hk with rfl | rfl <;> rfl))
  | asks hk hd hr =>
    rw [hr]
    exact hw.behind.acquire hradio.sound _ (hall (by rcases hk with rfl | rfl <;> rfl))
  | listens hattached hr hi hdue =>
    refine hw.behind.mono (by rw [hr]) fun q hq => ?_
    by_cases hq' : q = .listener l
    · subst hq'
      obtain ⟨t', k₀, hl', hk⟩ := hq
      cases hl.symm.trans hl'
      have hby := hk.2.resolve_left (by rw [← ha, hattached]; simp)
      exact ⟨t, .listening _ .quiet, by rw [hgoes.listener?, Function.update_self], _, hby, hdue⟩
    · exact hkept q hq' hq
  | takes x hx hr => exact hleave (by simp [ListenerStage.standing]) hr
  | idles hr => exact hleave (by simp [ListenerStage.standing]) hr
  | ends hr => exact hleave (by simp [ListenerStage.standing]) hr
  | reports hr | restarts hr => exact hw.behind.mono (by rw [hr]) (hall rfl)

/-- Whatever else happens, those before a request that waits give the radio back by `due`, and time
does not go by beyond that. -/
theorem waits_after {e : Errand} (h : Steady g) (hw : Waits again due g id)
    (hid : g.stage? id = some (.waitingRadio e)) (hm : Paced g m)
    (hown : m = .resume (.client id) → g.goes (.client id) = false) :
    Waits again due (g.after m) id := by
  have ha : (g.after m).station.attached = g.station.attached := h.attached_of_waits hw hown
  by_cases helapse : ∃ ms, m = .elapse ms
  · obtain ⟨ms, rfl⟩ := helapse
    exact h.waits_elapse hw hid hm
  · have hc : (g.after m).clock = g.clock := clock_after fun ms he => helapse ⟨ms, he⟩
    refine ⟨?_, by rw [hc]; exact hw.clock⟩
    have hstay (hr : (g.after m).radio = g.radio) (hp : ∀ p, m ≠ .resume p)
        (hd : ∀ x, m ≠ .dismiss x) :
        (g.after m).radio.Behind (.client id) (Brief again due (g.after m)) :=
      hw.behind.mono (by rw [hr]) fun q hq =>
        hq.after h (fun he => absurd he (hp q)) (fun x _ => hd x) ha hc
    cases m with
    | resume p =>
      cases hp : g.goes p with
      | false =>
        rw [after_resume_of_not_goes hp]
        exact hw.behind
      | true =>
        have hkept (q : Party) (hne : q ≠ p) (hq : Brief again due g q) :
            Brief again due (g.after (.resume p)) q :=
          hq.after h (fun he => absurd (Move.resume.inj he).symm hne) (by simp) ha hc
        cases p with
        | client other =>
          have hne : other ≠ id := by
            rintro rfl
            cases hp.symm.trans (hown rfl)
          exact h.waits_client hw hne hp hkept
        | listener l => exact h.waits_listener hw hp ha hkept
    | dismiss x =>
      cases hx : g.listener? x with
      | none =>
        have hsame : g.after (.dismiss x) = g := by simp [Gateway.after, dismiss, hx]
        rw [hsame]
        exact hw.behind
      | some l =>
        refine hw.behind.leave h.order.orderly.radio.nodup (radio_dismiss hx).1 (by simp)
          fun q hne hq => ?_
        exact hq.after h (by simp) (fun y he hxy => hne (by cases hxy; exact he)) ha hc
    | elapse ms => exact absurd ⟨ms, rfl⟩ helapse
    | forget x =>
      refine hstay ?_ (by simp) (by simp)
      simp only [Gateway.after]
      split <;> rfl
    | arrive | enlist => exact hstay (by simp [Gateway.after]) (by simp) (by simp)
    | poll | stimulate | relog => exact hstay rfl (by simp) (by simp)

end Steady

end RadioGateway.Gateway
