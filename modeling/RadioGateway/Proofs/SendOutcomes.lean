import RadioGateway.Proofs.Sending
import RadioGateway.Proofs.Supervision

/-!
# What becomes of a send

A send that has come in is told that its payload was sent, or what was in the way, and then nothing
has been changed. In simulation nothing is ever in the way.
-/

namespace RadioGateway.Gateway

open Function (update)
open RadioGateway.Radio (RadioError)
open RadioGateway.Station (Backend Bench)

variable {g g' : Gateway} {id : Nat} {m : Move} {k : Stage} {payload : List UInt8}

-- ---------------------------------------------------------------------------
-- Every send asks once, and is told once
-- ---------------------------------------------------------------------------

theorem mem_asks {w : Nat × List UInt8} : w ∈ asks g m ↔ m = .resume (.client w.1) ∧
    g.goes (.client w.1) = true ∧ g.stage? w.1 = some (.arrived (.send (.ok w.2))) := by
  unfold asks
  constructor
  · intro hw
    split at hw
    · split at hw
      · rename_i hp
        split at hw
        · rename_i hid
          obtain rfl := List.mem_singleton.mp hw
          exact ⟨rfl, hp, hid⟩
        · cases hw
      · cases hw
    · cases hw
  · rintro ⟨rfl, hp, hid⟩
    simp [hp, hid]

theorem nodup_asks (g : Gateway) (m : Move) : ((asks g m).map Prod.fst).Nodup := by
  unfold asks
  split
  · split
    · split <;> simp
    · exact .nil
  · exact .nil

/-- The request has been made, and has gone on since. -/
structure Past (g : Gateway) (id : Nat) : Prop where
  known : id < g.nextId
  stage : ∀ r, g.stage? id ≠ some (.arrived r)

theorem Past.after (h : Past g id) (hp : Prompt g) (ho : InOrder g) (m : Move) :
    Past (g.after m) id := by
  refine ⟨Nat.lt_of_lt_of_le h.known (nextId_le_after g m), fun r hid => ?_⟩
  rcases ho.stage?_of_after hid with hbefore | ⟨hnew, -⟩ | ⟨rfl, hg⟩
  · exact h.stage r hbefore
  · exact Nat.lt_irrefl _ (hnew ▸ h.known)
  · obtain ⟨k, k', -, hstage, hproceeds⟩ := hp.proceeds ho hg
    cases hstage.symm.trans hid
    cases hproceeds with
    | changes hk hk' => cases hk'

theorem past_of_mem_asks {w : Nat × List UInt8} (hp : Prompt g) (ho : InOrder g)
    (hw : w ∈ asks g m) : Past (g.after m) w.1 := by
  obtain ⟨rfl, hg, hid⟩ := mem_asks.mp hw
  refine ⟨Nat.lt_of_lt_of_le (ho.fresh.client w.1 (by simp [hid])) (nextId_le_after g _),
    fun r hr => ?_⟩
  obtain ⟨k, k', hk, hstage, hproceeds⟩ := hp.proceeds ho hg
  cases hk.symm.trans hid
  cases hstage.symm.trans hr
  cases hproceeds with
  | changes hk hk' => cases hk'

/-- No send asks twice. -/
theorem asks_once {backend : Backend} (hb : backend = .simulated ∨ backend = .hardware .scripted)
    (bench : Bench) (capacity epoch : Nat) (moves : List Move) :
    let g₀ := start backend bench capacity epoch
    ((history asks g₀ moves).map Prod.fst).Nodup ∧
      ∀ w ∈ history asks g₀ moves, Past (g₀.through moves) w.1 := by
  intro g₀
  induction moves using List.reverseRecOn with
  | nil => exact ⟨.nil, by rintro w ⟨⟩⟩
  | append_singleton moves m ih =>
    have ho := (inOrder_start backend bench capacity epoch).through moves
    have hp := prompt_through hb bench capacity epoch moves
    rw [history_snoc, through_snoc, List.map_append]
    refine ⟨List.nodup_append.mpr ⟨ih.1, nodup_asks _ m, ?_⟩, fun w hw => ?_⟩
    · rintro _ hx _ hy rfl
      obtain ⟨w, hw, hwx⟩ := List.mem_map.mp hx
      obtain ⟨v, hv, hvx⟩ := List.mem_map.mp hy
      obtain ⟨-, -, hid⟩ := mem_asks.mp hv
      exact (ih.2 w hw).stage _ ((hwx.trans hvx.symm) ▸ hid)
    · rcases List.mem_append.mp hw with hw | hw
      · exact (ih.2 w hw).after hp ho m
      · exact past_of_mem_asks hp ho hw

/-- Whoever is told that a payload was sent has asked to send it. -/
theorem sent_mem_returns {length : Nat} {simulated : Bool} (hp : Prompt g) (ho : InOrder g)
    (hid : (g.after m).outcome? id = some (.ok (.sent length simulated))) :
    g.outcome? id = some (.ok (.sent length simulated)) ∨
      (id, .ok (.sent length simulated)) ∈ returns g m := by
  rw [outcome?_eq_some] at hid ⊢
  rcases ho.stage?_of_after hid with hbefore | ⟨_, _, _, _, _, hk⟩ | ⟨rfl, hg⟩
  · exact .inl hbefore
  · cases hk
  · obtain ⟨k, k', hk, hstage, hproceeds⟩ := hp.proceeds ho hg
    cases hstage.symm.trans hid
    refine .inr ?_
    generalize hout : Stage.finished (.ok (.sent length simulated)) = k' at hproceeds
    cases hproceeds with
    | changes hs hs' =>
      subst hout
      cases hs'
    | refuses e => cases hout
    | asks payload => cases hout
    | ends payload =>
      have hm : (id, payload) ∈ g.pending := by
        have hheld : g.radio.holder = some (.client id) :=
          ho.holds_radio hg (by rw [standing_client hk]; simp [Stage.standing])
        refine List.mem_filterMap.mpr ⟨.client id, Lock.mem_parties_of_holder hheld, ?_⟩
        simp [sending?, hk, Stage.payload?]
      refine List.mem_filterMap.mpr ⟨_, hm, ?_⟩
      rw [(outcome?_eq_some _ _).mpr hid]
      rfl

theorem sent_mem_history {backend : Backend}
    (hb : backend = .simulated ∨ backend = .hardware .scripted) (bench : Bench)
    (capacity epoch : Nat) (moves : List Move) {length : Nat} {simulated : Bool} :
    let g₀ := start backend bench capacity epoch
    (g₀.through moves).outcome? id = some (.ok (.sent length simulated)) →
      (id, .ok (.sent length simulated)) ∈ history returns g₀ moves := by
  intro g₀
  induction moves using List.reverseRecOn with
  | nil => rintro ⟨⟩
  | append_singleton moves m ih =>
    rw [through_snoc, history_snoc, List.mem_append]
    intro hid
    exact (sent_mem_returns (prompt_through hb bench capacity epoch moves)
      ((inOrder_start backend bench capacity epoch).through moves) hid).imp_left ih

-- ---------------------------------------------------------------------------
-- One send
-- ---------------------------------------------------------------------------

/-- A send that has come in, up to the collection of its outcome. -/
inductive SendStands (g : Gateway) (id : Nat) (payload : List UInt8) : Prop
  | arrived (hid : g.stage? id = some (.arrived (.send (.ok payload))))
  | waiting (hid : g.stage? id = some (.waitingRadio (.send payload)))
  | ended {o : Outcome} (hid : g.stage? id = some (.finished o))
      (ho : Told g.station.simulated payload o)
  | collected (hid : g.stage? id = none) (hk : id < g.nextId)

theorem SendStands.after (h : SendStands g id payload) (hp : Prompt g) (ho : InOrder g) (m : Move) :
    SendStands (g.after m) id payload := by
  have hsim : (g.after m).station.simulated = g.station.simulated := by
    rw [Station.simulated, Station.simulated, backend_after]
  have hknown : id < g.nextId := by
    cases h with
    | collected hid hk => exact hk
    | arrived hid | waiting hid | ended hid => exact ho.fresh.client id (by simp [hid])
  cases hid : (g.after m).stage? id with
  | none => exact .collected hid (Nat.lt_of_lt_of_le hknown (nextId_le_after g m))
  | some k =>
    -- only a step of its own takes a request further, and then by one stage
    rcases ho.stage?_of_after hid with hbefore | ⟨hnew, -⟩ | ⟨rfl, hg⟩
    · cases h with
      | arrived hid' => exact .arrived (by rw [hid, ← hbefore, hid'])
      | waiting hid' => exact .waiting (by rw [hid, ← hbefore, hid'])
      | ended hid' htold => exact .ended (by rw [hid, ← hbefore, hid']) (hsim ▸ htold)
      | collected hid' => cases hbefore.symm.trans hid'
    · exact absurd hknown (by rw [hnew]; exact Nat.lt_irrefl _)
    · obtain ⟨k₀, k', hk₀, hstage, hproceeds⟩ := hp.proceeds ho hg
      cases h with
      | arrived hid' =>
        cases hk₀.symm.trans hid'
        cases hproceeds with
        | changes hs => cases hs
        | asks => exact .waiting hstage
      | waiting hid' =>
        cases hk₀.symm.trans hid'
        cases hproceeds with
        | changes hs => cases hs
        | ends => exact .ended hstage (hsim ▸ told_reported g.station payload)
      | ended hid' =>
        obtain ⟨k₁, hk₁, hf⟩ := ho.stage?_of_goes hg
        cases hk₁.symm.trans hid'
        cases hf
      | collected hid' => cases hk₀.symm.trans hid'

theorem SendStands.through (h : SendStands g id payload) (hp : Prompt g) (ho : InOrder g)
    (more : List Move) : SendStands (g.through more) id payload := by
  induction more generalizing g with
  | nil => exact h
  | cons m more ih => exact ih (h.after hp ho m) (hp.after ho m) (ho.after m)

theorem sendStands_arrive (ho : InOrder g) (origin : Origin) (manner : Manner)
    (payload : List UInt8) :
    SendStands (g.after (.arrive origin manner (.send (.ok payload)))) g.nextId payload := by
  refine .arrived ?_
  rw [after, stage?_arrive g origin manner _ ho.stage?_next, Function.update_self]

-- ---------------------------------------------------------------------------
-- The last step of a send
-- ---------------------------------------------------------------------------

/-- Nothing was sent, and nothing has changed for those who send, listen or ask for the link. -/
structure Unsent (g g' : Gateway) : Prop where
  aired : g'.station.aired = g.station.aired
  inbox : g'.inbox = g.inbox
  link : g'.link = g.link
  driver : g'.station.driver = g.station.driver

theorem send_refused {e : Json.Error} (hg : g.goes (.client id) = true)
    (hid : g.stage? id = some (.arrived (.send (.error e)))) :
    (g.after (.resume (.client id))).stage? id =
      some (.finished (.error (.serialization e.message))) ∧
      Unsent g (g.after (.resume (.client id))) := by
  have hid' : (g.depart (.client id)).stage? id = some (.arrived (.send (.error e))) := by
    simpa using hid
  rw [after_resume hg, resume, resumeClient_unencodable hid']
  exact ⟨by simp [hid], by simp [Station.aired], by simp, by simp, by simp⟩

theorem send_ends (hp : Prompt g) (hg : g.goes (.client id) = true)
    (hid : g.stage? id = some (.waitingRadio (.send payload))) :
    let g' := g.after (.resume (.client id))
    g'.stage? id = some (.finished (reported g.station.simulated (g.station.verdict payload))) ∧
      g'.station.aired = g.station.aired ++ g.station.onAir payload ∧
      g'.inbox = g.inbox.counting (g.station.verdict payload) ∧
      g'.link = g.link ∧ g'.station.driver = g.station.driver := by
  have hid' : (g.depart (.client id)).stage? id = some (.waitingRadio (.send payload)) := by
    simpa using hid
  have hstation : (g.depart (.client id)).station = g.station := (depart_keeps g _).1
  obtain ⟨hst, hlink, -, hbox, hstage⟩ := resumeClient_send (by simpa using hp.station) hid'
  obtain ⟨-, hdriver, -, haired⟩ := Station.beginSend_prompt hp.station payload
  rw [hstation] at hst hbox hstage
  intro g'
  have hafter : g' = (g.depart (.client id)).resumeClient id := after_resume hg
  rw [hafter]
  exact ⟨hstage, by rw [hst, haired], by simpa using hbox, by simpa using hlink,
    by rw [hst, hdriver]⟩

-- ---------------------------------------------------------------------------
-- In simulation
-- ---------------------------------------------------------------------------

section Asleep

variable (g : Gateway) (id : Nat) (p : Party)

@[simp] theorem asleep_wake : (g.wake p).asleep = g.asleep := by
  unfold wake
  split <;> rfl

@[simp] theorem asleep_wakeHolder (o : Option Party) : (g.wakeHolder o).asleep = g.asleep := by
  cases o with
  | none => rfl
  | some q => exact asleep_wake g q

@[simp] theorem asleep_leaveRadio : g.leaveRadio.asleep = g.asleep := asleep_wakeHolder _ _

@[simp] theorem asleep_leaveTurn : g.leaveTurn.asleep = g.asleep := asleep_wakeHolder _ _

@[simp] theorem asleep_finish (o : Outcome) : (g.finish id o).asleep = g.asleep := rfl

@[simp] theorem asleep_note (events : List Log.Event) : (g.note events).asleep = g.asleep := rfl

@[simp] theorem asleep_withStation (s : Station) (events : List Log.Event) :
    (g.withStation s events).asleep = g.asleep := rfl

@[simp] theorem asleep_withInbox (i : Inbox) : (g.withInbox i).asleep = g.asleep := rfl

@[simp] theorem asleep_withLink (link : Link) : (g.withLink link).asleep = g.asleep := rfl

@[simp] theorem asleep_seekTurn (r : Request) : (g.seekTurn id r).asleep = g.asleep := by
  rw [seekTurn_eq]
  simp only
  split <;> rfl

@[simp] theorem asleep_seekRadio (e : Errand) : (g.seekRadio id e).asleep = g.asleep := by
  rw [seekRadio_eq]
  simp only
  split <;> rfl

end Asleep

/-- In simulation a step of a client never ends with a pause. -/
theorem asleep_resumeClient (hb : g.station.backend = .simulated) (hp : Prompt g)
    (hno : ∀ c o, g.stage? id ≠ some (.opening c o)) : (g.resumeClient id).asleep = g.asleep := by
  unfold resumeClient
  split
  next => rfl
  next => rfl
  next => simp
  next => simp
  next => simp
  next =>
    unfold takeTurn
    split
    · simp only
      split <;> simp
    · simp
  next errand _ =>
    cases errand with
    | attach c => simp [useRadio, Station.beginAttach_simulated hb c, opened, commit]
    | confirm e => simp [useRadio, giveUp]
    | detach => simp [useRadio]
    | send payload =>
      simp only [useRadio, progressTransmit,
        (Station.beginSend_prompt hp.station payload).1, transmitted]
      split <;> simp
  next hid => exact absurd hid (hno _ _)
  next hid => exact absurd hid (hp.stage _ _ _)

/-- In simulation nobody sleeps but a loop between two packets, and no loop has to do with the
radio. -/
structure Simulated (g : Gateway) : Prop where
  backend : g.station.backend = .simulated
  listener : ∀ id l, g.listener? id = some l → l.stage = .starting ∨ l.stage = .simulating
  asleep : ∀ s ∈ g.asleep, ∃ id, s.2 = .listener id

theorem Lasting.asleep_listeners (h : Lasting (.listener id) g g')
    (ha : ∀ s ∈ g.asleep, ∃ id, s.2 = .listener id) :
    ∀ s ∈ g'.asleep, ∃ id, s.2 = .listener id := by
  obtain ⟨naps, hn, hs⟩ := h.asleep
  intro s hm
  have hm' : s ∈ g.asleep ++ naps := by rwa [show g'.asleep = g.asleep ++ naps from hn] at hm
  rcases List.mem_append.mp hm' with hm' | hm'
  · exact ha s hm'
  · exact ⟨id, (hs s hm').1⟩

namespace Simulated

theorem resumeListener {l : Listener} (h : Simulated g) (hid : g.listener? id = some l) :
    (g.resumeListener id).listener? =
      update g.listener? id (some { l with stage := .simulating }) := by
  have hsim : g.station.simulated = true := by simp [Station.simulated, h.backend]
  unfold Gateway.resumeListener
  rw [hid]
  obtain ⟨t, stage⟩ := l
  rcases h.listener id _ hid with rfl | rfl
  · simp [iterate, hsim, hid]
  · simp [iterate, hsim, hid]

theorem listener_update (h : Simulated g) {o : Option Listener}
    (ho : ∀ l, o = some l → l.stage = .starting ∨ l.stage = .simulating) (who : Nat) :
    ∀ id l, update g.listener? who o id = some l → l.stage = .starting ∨ l.stage = .simulating :=
  (Function.forall_update_iff g.listener? fun _ (o : Option Listener) =>
    ∀ l, o = some l → l.stage = .starting ∨ l.stage = .simulating).mpr ⟨ho, fun x _ => h.listener x⟩

theorem listener_after (h : Simulated g) (ho : InOrder g) (m : Move) :
    ∀ id l, (g.after m).listener? id = some l → l.stage = .starting ∨ l.stage = .simulating := by
  have hkeep {g' : Gateway} (hl : g'.listener? = g.listener?) :
      ∀ id l, g'.listener? id = some l → l.stage = .starting ∨ l.stage = .simulating := by
    rw [hl]
    exact h.listener
  cases m with
  | resume p =>
    cases hp : g.goes p with
    | false => exact hkeep (by rw [after_resume_of_not_goes hp])
    | true =>
      rw [after_resume hp]
      cases p with
      | client id =>
        exact hkeep ((sends_resumeClient (g.depart (.client id)) id).listener?.trans (by simp))
      | listener id =>
        have hsame : (g.depart (.listener id)).listener? = g.listener? := by simp
        cases hid : g.listener? id with
        | none => exact hkeep (by simp [resume, Gateway.resumeListener, hid])
        | some l =>
          have hd : Simulated (g.depart (.listener id)) := by
            refine ⟨by simpa using h.backend, by rw [hsame]; exact h.listener, ?_⟩
            rw [(depart_keeps_others g _).1]
            exact h.asleep
          rw [resume, hd.resumeListener (hsame ▸ hid), hsame]
          refine h.listener_update ?_ id
          rintro _ ⟨⟩
          exact .inr rfl
  | enlist t =>
    simp only [Gateway.after, listener?_enlist g t ho.listener?_next]
    refine h.listener_update ?_ g.nextId
    rintro _ ⟨⟩
    exact .inl rfl
  | dismiss id =>
    simp only [Gateway.after, listener?_dismiss]
    refine h.listener_update ?_ id
    rintro _ ⟨⟩
  | forget id => exact hkeep (by simp only [Gateway.after]; split <;> simp)
  | arrive origin manner r => exact hkeep (by simp [Gateway.after])
  | elapse | poll | stimulate | relog => exact hkeep rfl

/-- In simulation no opening takes time. -/
theorem not_opening (h : Simulated g) (ho : InOrder g) (hl : InLine g)
    (hg : g.goes (.client id) = true) (c : Radio.Config) (o : Station.Opening) :
    g.stage? id ≠ some (.opening c o) := by
  intro hid
  obtain ⟨-, hw, hb, -⟩ := hl.front_opening ho hg hid
  cases h.backend.symm.trans hb

theorem asleep_after (h : Simulated g) (hp : Prompt g) (ho : InOrder g) (hl : InLine g) (m : Move) :
    ∀ s ∈ (g.after m).asleep, ∃ id, s.2 = .listener id := by
  cases m with
  | resume p =>
    cases hg : g.goes p with
    | false =>
      rw [after_resume_of_not_goes hg]
      exact h.asleep
    | true =>
      have hd : ∀ s ∈ (g.depart p).asleep, ∃ id, s.2 = .listener id := by
        rw [(depart_keeps_others g p).1]
        exact h.asleep
      rw [after_resume hg]
      cases p with
      | listener id => exact (lasting_resume (g.depart (.listener id)) _).asleep_listeners hd
      | client id =>
        have hp' : Prompt (g.depart (.client id)) :=
          ⟨by simpa using hp.station, by simpa using hp.stage⟩
        have hno (c : Radio.Config) (o : Station.Opening) :
            (g.depart (.client id)).stage? id ≠ some (.opening c o) := by
          simpa using h.not_opening ho hl hg c o
        rw [resume, asleep_resumeClient (by simpa using h.backend) hp' hno]
        exact hd
  | elapse ms => exact fun s hs => h.asleep s (List.mem_of_mem_filter hs)
  | arrive origin manner r =>
    exact (lasting_arrive g (.listener 0) origin manner r).asleep_listeners h.asleep
  | enlist t => exact (lasting_enlist g (.listener 0) t).asleep_listeners h.asleep
  | dismiss id =>
    rcases lasting_dismiss g (.listener 0) id with hstay | hlasts
    · rw [Gateway.after, hstay]
      exact h.asleep
    · exact hlasts.asleep_listeners fun s hs => h.asleep s (List.mem_of_mem_filter hs)
  | forget id =>
    simp only [Gateway.after]
    split <;> exact h.asleep
  | poll | stimulate | relog => exact h.asleep

theorem after (h : Simulated g) (hp : Prompt g) (ho : InOrder g) (hl : InLine g) (m : Move) :
    Simulated (g.after m) :=
  ⟨(backend_after g m).trans h.backend, h.listener_after ho m, h.asleep_after hp ho hl m⟩

/-- Only clients claim the turn or the radio, and whoever does goes on once it holds what it
claims. -/
theorem active_of_claim {p : Party} (h : Simulated g)
    (hc : (g.standing p).turn ≠ .none ∨ (g.standing p).radio ≠ .none) :
    (∃ id, p = .client id) ∧ (g.standing p).active = true := by
  cases p with
  | listener id =>
    cases hid : g.listener? id with
    | none => simp [standing, hid, Standing.gone] at hc
    | some l =>
      rw [standing_listener hid] at hc
      rcases h.listener id l hid with hs | hs <;>
        simp [hs, ListenerStage.standing, Standing.free] at hc
  | client id =>
    refine ⟨⟨id, rfl⟩, ?_⟩
    cases hid : g.stage? id with
    | none => simp [standing, hid, Standing.gone] at hc
    | some k =>
      rw [standing_client hid] at hc ⊢
      cases k with
      | finished o => simp [Stage.standing, Standing.gone] at hc
      | waitingRadio e => cases e <;> rfl
      | _ => rfl

theorem not_awake (h : Simulated g) (hq : g.isQuiet = true) (id : Nat) : .client id ∉ g.awake := by
  have hempty : g.ready = [] ∧ g.yielding = [] := by simpa [isQuiet] using hq
  rw [awake, hempty.1, hempty.2]
  simp only [Multiset.coe_nil, zero_add, Multiset.mem_coe, List.mem_map, not_exists, not_and]
  intro s hs he
  obtain ⟨other, hother⟩ := h.asleep s hs
  cases he.symm.trans hother

theorem radio_free (h : Simulated g) (ho : InOrder g) (hq : g.isQuiet = true) :
    g.radio.holder = none := by
  cases hh : g.radio.holder with
  | none => rfl
  | some p =>
    have hclaim := (ho.orderly.radio.mem p).mp (Lock.mem_parties_of_holder hh)
    obtain ⟨⟨id, rfl⟩, hactive⟩ := h.active_of_claim (.inr hclaim)
    -- who has the radio waits for nothing, so it would be awake
    refine absurd ((ho.orderly.mem _).mpr ⟨hactive, fun ht => ?_, fun _ => hh⟩) (h.not_awake hq id)
    cases hc : (g.standing (.client id)).turn with
    | none => exact absurd hc ht
    | wants => exact absurd (ho.orderly.wantsTurn _ hc).2 hclaim
    | has => exact ho.orderly.turn.held _ hc

theorem turn_free (h : Simulated g) (ho : InOrder g) (hq : g.isQuiet = true) :
    g.turn.holder = none := by
  cases hh : g.turn.holder with
  | none => rfl
  | some p =>
    have hclaim := (ho.orderly.turn.mem p).mp (Lock.mem_parties_of_holder hh)
    have hradio := ho.orderly.radio.none_of_free (h.radio_free ho hq) p
    obtain ⟨⟨id, rfl⟩, hactive⟩ := h.active_of_claim (.inl hclaim)
    exact absurd ((ho.orderly.mem _).mpr ⟨hactive, fun _ => hh, fun hr => absurd hradio hr⟩)
      (h.not_awake hq id)

/-- When nobody can go on, nobody has the turn or the radio, so every request is over. -/
theorem all_over (h : Simulated g) (ho : InOrder g) (hq : g.isQuiet = true)
    (hid : g.stage? id = some k) : ∃ o, k = .finished o := by
  have hradio := ho.orderly.radio.none_of_free (h.radio_free ho hq) (.client id)
  have hturn := ho.orderly.turn.none_of_free (h.turn_free ho hq) (.client id)
  have hinactive : (g.standing (.client id)).active = false := by
    by_contra ha
    exact h.not_awake hq id ((ho.orderly.mem _).mpr
      ⟨by simpa using ha, fun ht => absurd hturn ht, fun hr => absurd hradio hr⟩)
  rw [standing_client hid] at hinactive
  cases k with
  | finished o => exact ⟨o, rfl⟩
  | waitingRadio e => cases e <;> cases hinactive
  | _ => cases hinactive

end Simulated

theorem simulated_through (bench : Bench) (capacity epoch : Nat) (moves : List Move) :
    Simulated ((start .simulated bench capacity epoch).through moves) := by
  induction moves using List.reverseRecOn with
  | nil => exact ⟨rfl, by rintro id l ⟨⟩, by rintro s ⟨⟩⟩
  | append_singleton moves m ih =>
    have ho := inOrder_start .simulated bench capacity epoch
    rw [through_snoc]
    exact ih.after (prompt_through (.inl rfl) bench capacity epoch moves) (ho.through moves)
      ((inLine_start .simulated bench capacity epoch).through ho moves) m

-- ---------------------------------------------------------------------------
-- Every run
-- ---------------------------------------------------------------------------

/-- Sends are neither lost nor doubled, reordered or miscounted, with the scripted radio and in
simulation. No send asks for the radio twice. Those that have asked and are over, `served`, have got
their outcomes in the order in which they asked, and the others wait in that order; what was
transmitted is what those were to send that were told so, and as many are counted. Nobody else is
told that a payload was sent, and every send is told its own length, whether it was simulated, or
what was in the way. If something is in the way nothing is sent and nothing changes. In simulation
nothing ever is, and no send waits when nobody can go on. -/
theorem sends_exact (simulated : Bool) (bench : Bench) (capacity epoch : Nat) (moves : List Move) :
    let g₀ := start (if simulated then .simulated else .hardware .scripted) bench capacity epoch
    let g := g₀.through moves
    let returned := history returns g₀ moves
    ((history asks g₀ moves).map Prod.fst).Nodup ∧
    (∃ (served : List (Nat × List UInt8)) (outcomes : List Outcome),
      let payloads := served.map Prod.snd
      history asks g₀ moves = served ++ g.pending ∧
      returned = (served.map Prod.fst).zip outcomes ∧ outcomes.length = served.length ∧
      g.station.bench.script.transmitted =
        bench.script.transmitted ++ (if simulated then [] else delivered payloads outcomes) ∧
      g.inbox.stats.sent = (outcomes.filter Except.isOk).length ∧
      ∀ x ∈ payloads.zip outcomes, Told simulated x.1 x.2) ∧
    (∀ id length counterfeit, g.outcome? id = some (.ok (.sent length counterfeit)) →
      (id, .ok (.sent length counterfeit)) ∈ returned) ∧
    (∀ origin manner payload more,
      SendStands ((g.after (.arrive origin manner (.send (.ok payload)))).through more)
        g.nextId payload) ∧
    (∀ id, g.goes (.client id) = true →
      let g' := g.after (.resume (.client id))
      (∀ e, g.stage? id = some (.arrived (.send (.error e))) →
        g'.stage? id = some (.finished (.error (.serialization e.message))) ∧ Unsent g g') ∧
      ∀ payload, g.stage? id = some (.waitingRadio (.send payload)) →
        ((simulated = true ∨ g.station.obstacle? = none) →
          g'.stage? id = some (.finished (.ok (.sent payload.length simulated))) ∧
          g'.inbox = { g.inbox with stats := g.inbox.stats.recordSent } ∧
          g'.link = g.link ∧ g'.station.driver = g.station.driver) ∧
        ∀ e, simulated = false → g.station.obstacle? = some e →
          g'.stage? id = some (.finished (.error (.driver e))) ∧ Unsent g g') ∧
    (simulated = true → g.isQuiet = true → ∀ id k, g.stage? id = some k →
      ∃ o, k = .finished o) := by
  intro g₀ g returned
  have hb : (if simulated then Backend.simulated else .hardware .scripted) = .simulated ∨
      (if simulated then Backend.simulated else .hardware .scripted) = .hardware .scripted := by
    cases simulated with
    | true => exact .inl rfl
    | false => exact .inr rfl
  have ho : InOrder g := (inOrder_start _ bench capacity epoch).through moves
  have hp : Prompt g := prompt_through hb bench capacity epoch moves
  have hbackend : g.station.backend = if simulated then .simulated else .hardware .scripted :=
    backend_through g₀ moves
  have hsim : g.station.simulated = simulated := by
    rw [Station.simulated, hbackend]
    cases simulated <;> rfl
  refine ⟨(asks_once hb bench capacity epoch moves).1, ?_, fun id length counterfeit => ?_,
    fun origin manner payload more => ?_,
    fun id hg => ⟨fun e => send_refused hg, fun payload hid => ?_⟩, ?_⟩
  · obtain ⟨served, outcomes, h⟩ := dispatched_through hb bench capacity epoch moves
    have haired := h.aired
    have htold := h.told
    rw [show (g₀.through moves).station.simulated = simulated from hsim] at haired htold
    exact ⟨served, outcomes, h.asked, h.returned, h.length, haired, h.sent, htold⟩
  · exact sent_mem_history hb bench capacity epoch moves
  · exact (sendStands_arrive ho origin manner payload).through (hp.after ho _) (ho.after _) more
  · obtain ⟨hstage, haired, hbox, hlink, hdriver⟩ := send_ends hp hg hid
    rw [hsim] at hstage
    refine ⟨fun hfree => ?_, fun e hs he => ?_⟩
    · have hv : g.station.verdict payload = .ok payload.length := by
        unfold Station.verdict
        rw [hbackend]
        rcases hfree with rfl | he
        · rfl
        · cases simulated <;> simp [he]
      rw [hv] at hstage hbox
      exact ⟨hstage, hbox, hlink, hdriver⟩
    · subst hs
      have hv : g.station.verdict payload = .error e := by simp [Station.verdict, hbackend, he]
      have hair : g.station.onAir payload = [] := by simp [Station.onAir, hbackend, he]
      rw [hv] at hstage hbox
      exact ⟨hstage, by rw [haired, hair, List.append_nil], hbox, hlink, hdriver⟩
  · rintro rfl hq id k hid
    exact (simulated_through bench capacity epoch moves).all_over ho hq hid

end RadioGateway.Gateway
