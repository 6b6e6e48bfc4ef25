import RadioGateway.Proofs.Conservation

/-!
# A receive loop goes on until it is dismissed

Whatever happens, a loop that was started is there until it is dismissed: it works, which is to go
on, to sleep or to wait for the radio, or it has crashed and is to start again after a pause. It can
be dismissed at every moment, and then it is gone for good, with every claim it had.
-/

namespace RadioGateway.Gateway

open Function (update)
open RadioGateway.Station (Backend Bench Effect Heard Listening Progress)

variable {g g' g'' : Gateway} {id : Nat} {p q : Party} {t : Timing} {due : Nat} {m : Move}

-- ---------------------------------------------------------------------------
-- Nobody else is kept from going on
-- ---------------------------------------------------------------------------

/-- Who goes on, and when, and the number of the next who comes. -/
structure Agenda where
  clock : Nat
  ready : List Party
  yielding : List Party
  asleep : List (Nat × Party)
  nextId : Nat

def agenda (g : Gateway) : Agenda := ⟨g.clock, g.ready, g.yielding, g.asleep, g.nextId⟩

def Agenda.goes (a : Agenda) (p : Party) : Prop := p ∈ a.ready ∨ p ∈ a.yielding

/-- In a step of `p` whoever could go on still can, whoever slept sleeps on, and nobody but `p`
falls asleep. -/
structure Agenda.Lasts (p : Party) (a a' : Agenda) : Prop where
  clock : a'.clock = a.clock
  goes : ∀ q, a.goes q → a'.goes q
  asleep : ∃ naps, a'.asleep = a.asleep ++ naps ∧ ∀ s ∈ naps, s.2 = p ∧ a.clock < s.1
  nextId : a.nextId ≤ a'.nextId

def Lasting (p : Party) (g g' : Gateway) : Prop := g.agenda.Lasts p g'.agenda

theorem goes_iff : g.goes p = true ↔ g.agenda.goes p := by simp [goes, Agenda.goes, agenda]

namespace Lasting

theorem refl (p : Party) (g : Gateway) : Lasting p g g :=
  ⟨rfl, fun _ h => h, ⟨[], by simp⟩, Nat.le_refl _⟩

theorem of_eq (h : g'.agenda = g.agenda) : Lasting p g g' := by
  rw [Lasting, h]
  exact refl p g

theorem trans (h : Lasting p g g') (h' : Lasting p g' g'') : Lasting p g g'' := by
  obtain ⟨naps, hn, hs⟩ := h.asleep
  obtain ⟨naps', hn', hs'⟩ := h'.asleep
  refine ⟨h'.clock.trans h.clock, fun q hq => h'.goes q (h.goes q hq), ⟨naps ++ naps', ?_, ?_⟩,
    Nat.le_trans h.nextId h'.nextId⟩
  · rw [hn', hn, List.append_assoc]
  · intro s hm
    rcases List.mem_append.mp hm with hm | hm
    · exact hs s hm
    · exact h.clock ▸ hs' s hm

theorem goesOn (h : Lasting p g g') (hq : g.goes q = true) : g'.goes q = true :=
  goes_iff.mpr (h.goes q (goes_iff.mp hq))

theorem mem (h : Lasting p g g') {s : Nat × Party} (hs : s ∈ g.asleep) : s ∈ g'.asleep := by
  obtain ⟨naps, hn, -⟩ := h.asleep
  have : s ∈ g'.agenda.asleep := hn ▸ List.mem_append_left naps hs
  exact this

end Lasting

section Parts

variable (g : Gateway) (id : Nat) (p : Party)

theorem lasting_wake (q : Party) : Lasting p g (g.wake q) := by
  unfold wake
  split
  · exact ⟨rfl, fun x hx => hx.imp_right (List.mem_append_left _),
      ⟨[], by simp [agenda]⟩, Nat.le_refl _⟩
  · exact ⟨rfl, fun x hx => hx.imp_left (List.mem_append_left _),
      ⟨[], by simp [agenda]⟩, Nat.le_refl _⟩

theorem lasting_goOn (q : Party) : Lasting p g (g.goOn q) :=
  ⟨rfl, fun _ hx => hx.imp_left (List.mem_cons_of_mem q),
    ⟨[], by simp [agenda, goOn]⟩, Nat.le_refl _⟩

theorem lasting_sleep (ms : Nat) : Lasting p g (g.sleep p ms) := by
  unfold sleep
  split
  · exact lasting_goOn g p p
  · refine ⟨rfl, fun _ h => h, ⟨[(g.clock + ms, p)], rfl, fun s hs => ?_⟩, Nat.le_refl _⟩
    obtain rfl := List.mem_singleton.mp hs
    refine ⟨rfl, ?_⟩
    simp only [agenda]
    omega

theorem lasting_wakeHolder (o : Option Party) : Lasting p g (g.wakeHolder o) := by
  cases o with
  | none => exact .refl p g
  | some q => exact lasting_wake g p q

theorem lasting_leaveRadio : Lasting p g g.leaveRadio :=
  lasting_wakeHolder (g.withRadio g.radio.release.1) p g.radio.release.2

theorem lasting_leaveTurn : Lasting p g g.leaveTurn :=
  lasting_wakeHolder (g.withTurn g.turn.release.1) p g.turn.release.2

theorem lasting_finish (outcome : Outcome) : Lasting p g (g.finish id outcome) := .of_eq rfl

/-- A change of the link ends with the turn being left and the client being told. -/
theorem lasting_concluded {linked : Gateway} (h : linked.agenda = g.agenda) (outcome : Outcome) :
    Lasting p g (linked.leaveTurn.finish id outcome) :=
  (Lasting.of_eq h).trans
    ((lasting_leaveTurn linked p).trans (lasting_finish linked.leaveTurn id p outcome))

theorem lasting_seekTurn (r : Request) : Lasting p g (g.seekTurn id r) := by
  rw [seekTurn_eq]
  split
  · exact lasting_goOn ((g.withTurn _).setStage id (.waitingTurn r)) p _
  · exact .refl p g

theorem lasting_seekRadio (e : Errand) : Lasting p g (g.seekRadio id e) := by
  rw [seekRadio_eq]
  split
  · exact lasting_goOn ((g.withRadio _).setStage id (.waitingRadio e)) p _
  · exact .refl p g

theorem lasting_seekSlice (deadline slice : Nat) : Lasting p g (g.seekSlice id deadline slice) := by
  rw [seekSlice_eq]
  split
  · exact lasting_goOn ((g.withRadio _).setListener id (.waitingRadio deadline slice)) p _
  · exact .refl p g

end Parts

-- ---------------------------------------------------------------------------
-- Clients
-- ---------------------------------------------------------------------------

section Clients

variable (g : Gateway) (id : Nat)

theorem lasting_opened (c : Radio.Config) (r : Except Radio.RadioError Station.Device) :
    Lasting p g (g.opened id c r) := by
  have hleave := lasting_leaveRadio g p
  cases r with
  | ok device =>
    refine hleave.trans (lasting_concluded _ id p ?_ _)
    rfl
  | error e => exact hleave.trans (lasting_seekRadio (g.leaveRadio.note _) id p (.confirm e))

theorem lasting_progressTransmit (length : Nat)
    (e : Effect Station (Progress Nat (Except Radio.RadioError Nat))) :
    Lasting (.client id) g (g.progressTransmit id length e) := by
  have hleave := lasting_leaveRadio (g.withStation e.state e.log) (.client id)
  unfold progressTransmit transmitted
  simp only
  split
  · split
    · exact hleave
    · exact hleave
  · rename_i ms looks _
    exact lasting_sleep
      ((g.withStation e.state e.log).setStage id (.transmitting length looks)) _ ms

theorem lasting_resumeClient : Lasting (.client id) g (g.resumeClient id) := by
  unfold resumeClient
  split
  · exact .refl _ g
  · exact .refl _ g
  · exact .refl _ g
  · exact lasting_seekRadio g id _ _
  · exact lasting_seekTurn g id _ _
  · unfold takeTurn
    split
    · simp only
      split
      · exact lasting_leaveTurn g _
      · exact lasting_seekRadio g id _ _
    · exact lasting_seekRadio g id _ _
  · rename_i errand _
    cases errand with
    | attach c =>
      simp only [useRadio]
      split
      · exact lasting_opened (g.withStation _ _) id c _
      · exact lasting_sleep ((g.withStation _ _).setStage id _) _ _
    | confirm e =>
      simp only [useRadio, giveUp]
      refine (lasting_leaveRadio g _).trans (lasting_concluded _ id _ ?_ _)
      rfl
    | detach =>
      let released := g.withStation g.station.detach.state g.station.detach.log
      refine (lasting_leaveRadio released _).trans (lasting_concluded _ id _ ?_ _)
      rfl
    | send payload => exact lasting_progressTransmit g id _ _
  · exact lasting_opened (g.withStation _ _) id _ _
  · exact lasting_progressTransmit g id _ _

end Clients

-- ---------------------------------------------------------------------------
-- Receive loops
-- ---------------------------------------------------------------------------

/-- The party goes on at `due`: it sleeps up to then, or it can go on. -/
def Due (g : Gateway) (p : Party) (due : Nat) : Prop :=
  (due, p) ∈ g.asleep ∧ g.clock < due ∨ due ≤ g.clock ∧ g.goes p = true

/-- What follows a crash: it is reported at once, and after the pause that the timing says the loop
starts again. -/
def Followed (g : Gateway) (id : Nat) (t : Timing) : ListenerStage → Prop
  | .crashed _ => g.goes (.listener id) = true
  | .restarting => Due g (.listener id) (g.clock + t.errorBackoff)
  | _ => True

/-- A step of a loop that has the timing `t`. -/
structure Loops (id : Nat) (t : Timing) (g g' : Gateway) : Prop where
  lasting : Lasting (.listener id) g g'
  stage : ∃ k : ListenerStage, Followed g' id t k ∧
    g'.listener? = update g.listener? id ((g.listener? id).map fun l => { l with stage := k })

theorem goes_goOn_self (g : Gateway) (p : Party) : (g.goOn p).goes p = true := by simp [goes, goOn]

theorem due_sleep (g : Gateway) (p : Party) (ms : Nat) : Due (g.sleep p ms) p (g.clock + ms) := by
  unfold sleep
  split
  · rename_i hz
    exact .inr ⟨by simp [hz], goes_goOn_self g p⟩
  · exact .inl ⟨by simp, by simp only; omega⟩

section Listeners

theorem Loops.of_lasting (h' : Loops id t g' g'') (h : Lasting (.listener id) g g')
    (hl : g'.listener? = g.listener?) : Loops id t g g'' :=
  ⟨h.trans h'.lasting, by rw [← hl]; exact h'.stage⟩

/-- The loop does not look at the log, the station and the inbox to know when it goes on. -/
theorem Loops.of_eq (h' : Loops id t g' g'') (ha : g'.agenda = g.agenda)
    (hl : g'.listener? = g.listener?) : Loops id t g g'' :=
  h'.of_lasting (.of_eq ha) hl

variable (g : Gateway) (id : Nat) (t : Timing)

theorem loops_listenerSleeps {k : ListenerStage} (hk : k.running = true) (ms : Nat) :
    Loops id t g (g.listenerSleeps id k ms) := by
  refine ⟨lasting_sleep (g.setListener id k) _ ms, k, ?_, by simp⟩
  cases k <;> first | cases hk; done | trivial

theorem loops_listenerProceeds (deadline : Option Nat) :
    Loops id t g (g.listenerProceeds id deadline) :=
  ⟨lasting_goOn (g.setListener id (.proceeding deadline)) _ _,
    .proceeding deadline, trivial, by simp⟩

theorem loops_iterate : Loops id t g (g.iterate id t) := by
  unfold iterate
  split
  · exact loops_listenerSleeps g id t rfl _
  · exact loops_listenerProceeds g id t _

theorem loops_nextSlice (deadline : Nat) : Loops id t g (g.nextSlice id deadline) := by
  unfold nextSlice
  split
  · exact loops_listenerProceeds g id t _
  · exact ⟨lasting_seekSlice g id _ _ _, .waitingRadio deadline _, trivial, by simp; rfl⟩

theorem loops_heard (deadline : Nat) (r : Heard) : Loops id t g (g.heard id t deadline r) := by
  have hleave := lasting_leaveRadio g (.listener id)
  unfold heard
  simp only
  split
  · exact (loops_listenerProceeds _ id t _).of_lasting hleave (by simp)
  · exact ((loops_listenerProceeds _ id t _).of_eq rfl rfl).of_lasting hleave (by simp)
  · exact ((loops_listenerSleeps _ id t rfl _).of_eq rfl rfl).of_lasting hleave (by simp)
  · rename_i reason
    exact ⟨hleave.trans (lasting_wake (g.leaveRadio.setListener id (.crashed reason)) _ _),
      .crashed reason, goes_wake _ _, by simp⟩

theorem loops_progressListen (deadline : Nat) (e : Effect Station (Progress Listening Heard)) :
    Loops id t g (g.progressListen id t deadline e) := by
  unfold progressListen
  simp only
  split
  · exact (loops_heard (g.withStation e.state e.log) id t deadline _).of_eq rfl rfl
  · exact (loops_listenerSleeps (g.withStation e.state e.log) id t rfl _).of_eq rfl rfl

theorem loops_listenSlice (deadline slice : Nat) :
    Loops id t g (g.listenSlice id t deadline slice) := by
  unfold listenSlice
  split
  · exact loops_progressListen g id t deadline _
  · exact (loops_listenerSleeps _ id t rfl _).of_lasting (lasting_leaveRadio g _) (by simp)

variable {g id t} {k : ListenerStage}

theorem loops_resumeListener (hid : g.listener? id = some ⟨t, k⟩) :
    Loops id t g (g.resumeListener id) := by
  unfold resumeListener
  rw [hid]
  cases k with
  | starting => exact (loops_iterate (g.note [.loopStarted]) id t).of_eq rfl rfl
  | proceeding deadline =>
    cases deadline with
    | none => exact loops_iterate g id t
    | some deadline => exact loops_nextSlice g id t deadline
  | simulating =>
    let taken := g.inbox.acceptSynthetic g.timestamp
    exact (loops_iterate ((g.withInbox taken.1).note taken.2) id t).of_eq rfl rfl
  | waitingRadio deadline slice => exact loops_listenSlice g id t deadline slice
  | listening deadline l =>
    simp only
    split
    · exact loops_progressListen g id t deadline _
    · exact (loops_listenerSleeps _ id t rfl _).of_lasting (lasting_leaveRadio g _) (by simp)
  | idle deadline => exact loops_nextSlice g id t deadline
  | backingOff => exact loops_iterate g id t
  | crashed reason =>
    let reported := (g.note [.loopCrashed reason]).setListener id .restarting
    have hdue := due_sleep reported (.listener id) t.errorBackoff
    refine ⟨lasting_sleep reported _ _, .restarting, ?_, by simp⟩
    simp only [Followed, listenerSleeps_keeps, note_keeps]
    exact hdue
  | restarting => exact ⟨lasting_wake (g.setListener id .starting) _ _, .starting, trivial, by simp⟩

end Listeners

-- ---------------------------------------------------------------------------
-- Moves
-- ---------------------------------------------------------------------------

theorem lasting_resume (g : Gateway) (p : Party) : Lasting p g (g.resume p) := by
  cases p with
  | client id => exact lasting_resumeClient g id
  | listener id =>
    cases hid : g.listener? id with
    | none =>
      have hstay : g.resume (.listener id) = g := by simp [resume, resumeListener, hid]
      exact .of_eq (by rw [hstay])
    | some l => exact (loops_resumeListener hid).lasting

/-- Nobody sleeps who should be awake. -/
def Punctual (g : Gateway) : Prop := ∀ s ∈ g.asleep, g.clock < s.1

theorem Punctual.lasting (h : Punctual g) (hl : Lasting p g g') : Punctual g' := by
  obtain ⟨naps, hn, hs⟩ := hl.asleep
  intro s hm
  have hclock : g'.clock = g.clock := hl.clock
  have hm' : s ∈ g.asleep ++ naps := by rwa [show g'.asleep = g.asleep ++ naps from hn] at hm
  rw [hclock]
  rcases List.mem_append.mp hm' with hm' | hm'
  · exact h s hm'
  · exact (hs s hm').2

theorem lasting_arrive (g : Gateway) (p : Party) (origin : Origin) (manner : Manner) (r : Request) :
    Lasting p g (g.arrive origin manner r) := by
  unfold arrive
  generalize g.clients ++ _ = clients
  have hjoined : Lasting p g { g with clients, nextId := g.nextId + 1 } :=
    ⟨rfl, fun _ h => h, ⟨[], by simp [agenda]⟩, Nat.le_succ _⟩
  exact hjoined.trans (lasting_wake _ p _)

theorem lasting_enlist (g : Gateway) (p : Party) (t : Timing) : Lasting p g (g.enlist t) := by
  unfold enlist
  generalize g.listeners ++ _ = listeners
  have hjoined : Lasting p g { g with listeners, nextId := g.nextId + 1 } :=
    ⟨rfl, fun _ h => h, ⟨[], by simp [agenda]⟩, Nat.le_succ _⟩
  exact hjoined.trans (lasting_wake _ p _)

/-- A loop that is dismissed is taken off the agenda, and all others stay on it. -/
def dropped (g : Gateway) (p : Party) : Gateway :=
  { g with
    ready := g.ready.filter (· ≠ p)
    yielding := g.yielding.filter (· ≠ p)
    asleep := g.asleep.filter fun s => s.2 ≠ p }

theorem lasting_dismiss (g : Gateway) (p : Party) (id : Nat) :
    g.dismiss id = g ∨ Lasting p (g.dropped (.listener id)) (g.dismiss id) := by
  unfold dismiss
  split
  · exact .inl rfl
  · simp only
    generalize g.radio.withdraw _ = withdrawn
    generalize g.listeners.filter _ = listeners
    exact .inr (lasting_wakeHolder
      { g.dropped (.listener id) with listeners, radio := withdrawn.1 } p withdrawn.2)

theorem depart_keeps_others (g : Gateway) (p : Party) : (g.depart p).asleep = g.asleep ∧
    ∀ q ≠ p, g.goes q = true → (g.depart p).goes q = true := by
  unfold depart
  split
  · refine ⟨rfl, fun q hq hg => ?_⟩
    rw [goes_iff] at hg ⊢
    exact hg.imp_left (List.mem_erase_of_ne hq).mpr
  · refine ⟨rfl, fun q hq hg => ?_⟩
    rw [goes_iff] at hg ⊢
    exact hg.imp_right (List.mem_erase_of_ne hq).mpr

theorem Punctual.after (h : Punctual g) (m : Move) : Punctual (g.after m) := by
  cases m with
  | resume p =>
    cases hp : g.goes p with
    | false => rwa [after_resume_of_not_goes hp]
    | true =>
      rw [after_resume hp]
      refine Punctual.lasting ?_ (lasting_resume (g.depart p) p)
      intro s hs
      rw [(depart_keeps g p).2.2.2.2.2.2.2.2.1]
      exact h s ((depart_keeps_others g p).1 ▸ hs)
  | elapse ms =>
    intro s hs
    simpa [Gateway.after, Gateway.elapse] using (List.mem_filter.mp hs).2
  | arrive origin manner r => exact h.lasting (lasting_arrive g (.client 0) origin manner r)
  | enlist t => exact h.lasting (lasting_enlist g (.client 0) t)
  | dismiss id =>
    rcases lasting_dismiss g (.client 0) id with hstay | hlasts
    · rwa [Gateway.after, hstay]
    · refine Punctual.lasting ?_ hlasts
      exact fun s hs => h s (List.mem_of_mem_filter hs)
  | forget id =>
    simp only [Gateway.after]
    split <;> exact h
  | poll | stimulate | relog => exact h

theorem punctual_through (backend : Backend) (bench : Bench) (capacity epoch : Nat)
    (moves : List Move) : Punctual ((start backend bench capacity epoch).through moves) := by
  induction moves using List.reverseRecOn with
  | nil => rintro s ⟨⟩
  | append_singleton moves m ih =>
    rw [through_snoc]
    exact ih.after m

theorem nextId_le_after (g : Gateway) (m : Move) : g.nextId ≤ (g.after m).nextId := by
  cases m with
  | resume p =>
    cases hp : g.goes p with
    | false => rw [after_resume_of_not_goes hp]
    | true =>
      have hle : (g.depart p).nextId ≤ ((g.depart p).resume p).nextId :=
        (lasting_resume (g.depart p) p).nextId
      rw [after_resume hp]
      simpa using hle
  | forget id =>
    simp only [after]
    split <;> exact Nat.le_refl _
  | arrive | enlist | dismiss => simp [after]
  | elapse | poll | stimulate | relog => exact Nat.le_refl _

/-- What a move of somebody else is to `p`: it does not keep `p` from going on, and `p` sleeps on,
but not longer than it was to. -/
structure Spares (p : Party) (g g' : Gateway) : Prop where
  goes : g.goes p = true → g'.goes p = true
  asleep : ∀ due, (due, p) ∈ g.asleep → g.clock < due → Due g' p due
  clock : g.clock ≤ g'.clock

theorem Lasting.spares (h : Lasting q g g') : Spares p g g' :=
  ⟨h.goesOn, fun _ hs hdue => .inl ⟨h.mem hs, (show g'.clock = g.clock from h.clock) ▸ hdue⟩,
    (show g'.clock = g.clock from h.clock) ▸ Nat.le_refl _⟩

theorem spares_elapse (g : Gateway) (p : Party) (ms : Nat) :
    Spares p g (g.elapse (g.clock + ms)) := by
  refine ⟨fun hp => ?_, fun due hs _ => ?_, Nat.le_add_right _ _⟩
  · rw [goes_iff] at hp ⊢
    exact hp.imp_left fun hr => List.mem_append_left _ (List.mem_append_left _ hr)
  · by_cases hdue : due ≤ g.clock + ms
    · refine .inr ⟨hdue, goes_iff.mpr (.inl ?_)⟩
      have hwoken : p ∈ (g.asleep.filter fun s => s.1 ≤ g.clock + ms).map Prod.snd :=
        List.mem_map.mpr ⟨_, List.mem_filter.mpr ⟨hs, by simpa using hdue⟩, rfl⟩
      simp only [agenda, elapse, List.mem_append, List.mem_filter, hwoken, true_and]
      cases g.inForeground p <;> simp
    · have hlater : g.clock + ms < due := by omega
      exact .inl ⟨List.mem_filter.mpr ⟨hs, by simpa using hlater⟩, hlater⟩

theorem spares_after (hr : m = .resume p → g.goes p = false)
    (hd : ∀ id, p = .listener id → m ≠ .dismiss id) : Spares p g (g.after m) := by
  cases m with
  | resume q =>
    cases hq : g.goes q with
    | false =>
      rw [after_resume_of_not_goes hq]
      exact (Lasting.refl q g).spares
    | true =>
      have hne : p ≠ q := by
        rintro rfl
        cases hq.symm.trans (hr rfl)
      rw [after_resume hq]
      obtain ⟨hasleep, hothers⟩ := depart_keeps_others g q
      have hclock : (g.depart q).clock = g.clock := by simp
      have hs : Spares p (g.depart q) ((g.depart q).resume q) :=
        (lasting_resume (g.depart q) q).spares
      exact ⟨fun hp => hs.goes (hothers p hne hp),
        fun due hm hdue => hs.asleep due (hasleep ▸ hm) (hclock ▸ hdue), hclock ▸ hs.clock⟩
  | elapse ms => exact spares_elapse g p ms
  | arrive origin manner r => exact (lasting_arrive g p origin manner r).spares
  | enlist t => exact (lasting_enlist g p t).spares
  | dismiss id =>
    rcases lasting_dismiss g p id with hstay | hlasts
    · rw [Gateway.after, hstay]
      exact (Lasting.refl p g).spares
    · have hne : p ≠ .listener id := fun he => hd id he rfl
      have hs : Spares p (g.dropped (.listener id)) (g.dismiss id) := hlasts.spares
      refine ⟨fun hp => hs.goes ?_,
        fun due hm => hs.asleep due (List.mem_filter.mpr ⟨hm, by simpa using hne⟩), hs.clock⟩
      simp only [Gateway.goes, dropped, List.mem_filter, Bool.or_eq_true,
        decide_eq_true_eq, ne_eq] at hp ⊢
      exact hp.imp (⟨·, hne⟩) (⟨·, hne⟩)
  | forget id =>
    simp only [Gateway.after]
    split <;> exact (Lasting.of_eq rfl).spares (q := p)
  | poll => exact (Lasting.of_eq rfl).spares (q := p)
  | stimulate x => exact (Lasting.of_eq rfl).spares (q := p)
  | relog news => exact (Lasting.of_eq rfl).spares (q := p)

theorem Due.spared (h : Due g p due) (hs : Spares p g g') : Due g' p due := by
  rcases h with ⟨hm, hdue⟩ | ⟨hdue, hp⟩
  · exact hs.asleep due hm hdue
  · exact .inr ⟨Nat.le_trans hdue hs.clock, hs.goes hp⟩

-- ---------------------------------------------------------------------------
-- A loop that is there
-- ---------------------------------------------------------------------------

/-- A step moves no other loop, and a loop that is not there makes none. -/
theorem listener?_resume {p : Party} (hp : p = .listener id → g.listener? id = none) :
    (g.resume p).listener? id = g.listener? id := by
  cases p with
  | client other => exact congrFun (sends_resumeClient g other).listener? id
  | listener other =>
    cases hother : g.listener? other with
    | none => simp [resume, resumeListener, hother]
    | some l =>
      obtain ⟨k, -, hl⟩ := (loops_resumeListener hother).stage
      have hne : id ≠ other := by
        rintro rfl
        cases (hp rfl).symm.trans hother
      rw [resume, hl, Function.update_of_ne hne]

/-- What becomes of the loops at a move that does not dismiss `id`: its timing stays, and if it
crashes or has crashed it is followed up. -/
theorem listener?_after (ho : InOrder g) {k : ListenerStage} (hid : g.listener? id = some ⟨t, k⟩)
    (hm : m ≠ .dismiss id) :
    ∃ k', (g.after m).listener? id = some ⟨t, k'⟩ ∧
      (k' = k ∧ Spares (.listener id) g (g.after m) ∨
        m = .resume (.listener id) ∧ g.goes (.listener id) = true ∧
        Followed (g.after m) id t k') := by
  have hspares (hr : m = .resume (.listener id) → g.goes (.listener id) = false) :
      Spares (.listener id) g (g.after m) := spares_after hr fun other he => by
    obtain rfl := Party.listener.inj he
    exact hm
  have hstays (hl : (g.after m).listener? id = g.listener? id)
      (hr : m = .resume (.listener id) → g.goes (.listener id) = false) :
      ∃ k', (g.after m).listener? id = some ⟨t, k'⟩ ∧
        (k' = k ∧ Spares (.listener id) g (g.after m) ∨
          m = .resume (.listener id) ∧ g.goes (.listener id) = true ∧
          Followed (g.after m) id t k') :=
    ⟨k, hl.trans hid, .inl ⟨rfl, hspares hr⟩⟩
  cases m with
  | resume p =>
    cases hp : g.goes p with
    | false =>
      refine hstays (by rw [after_resume_of_not_goes hp]) fun he => ?_
      cases he
      exact hp
    | true =>
      by_cases hne : p = .listener id
      · subst hne
        have hid' : (g.depart (.listener id)).listener? id = some ⟨t, k⟩ := by simpa using hid
        obtain ⟨k', hfollowed, hl⟩ := (loops_resumeListener hid').stage
        rw [← resume, ← after_resume hp] at hfollowed hl
        exact ⟨k', by simp [hl, hid], .inr ⟨rfl, hp, hfollowed⟩⟩
      -- nobody but the loop itself and who dismisses it has a hand in its stage
      · refine hstays ?_ fun he => absurd (Move.resume.inj he) hne
        rw [after_resume hp, listener?_resume fun he => absurd he hne]
        simp
  | enlist t' =>
    refine hstays ?_ (by simp)
    have hne : id ≠ g.nextId := by
      rintro rfl
      cases hid.symm.trans ho.listener?_next
    simp only [Gateway.after, listener?_enlist g t' ho.listener?_next, Function.update_of_ne hne]
  | dismiss other =>
    refine hstays ?_ (by simp)
    have hne : id ≠ other := fun he => hm (he ▸ rfl)
    simp only [Gateway.after, listener?_dismiss, Function.update_of_ne hne]
  | forget other => exact hstays (by simp only [Gateway.after]; split <;> simp) (by simp)
  | arrive origin manner r => exact hstays (by simp [Gateway.after]) (by simp)
  | elapse ms => exact hstays rfl (by simp)
  | poll => exact hstays rfl (by simp)
  | stimulate x => exact hstays rfl (by simp)
  | relog news => exact hstays rfl (by simp)

/-- A loop that works or is to start again. -/
inductive Alive (g : Gateway) (id : Nat) (t : Timing) : Prop
  | working {k : ListenerStage} (hid : g.listener? id = some ⟨t, k⟩) (hk : k.running = true)
      (hw : (∃ due, Due g (.listener id) due) ∨ .listener id ∈ g.radio.waiting)
  | crashed {reason : String} (hid : g.listener? id = some ⟨t, .crashed reason⟩)
      (hw : g.goes (.listener id) = true)
  | restarting {due : Nat} (hid : g.listener? id = some ⟨t, .restarting⟩)
      (hw : Due g (.listener id) due)

/-- A loop that neither has nor wants what somebody else has is on the agenda. -/
theorem InOrder.roused {l : Listener} (h : InOrder g) (hp : Punctual g)
    (hid : g.listener? id = some l) :
    (∃ due, Due g (.listener id) due) ∨ .listener id ∈ g.radio.waiting := by
  have hst : g.standing (.listener id) = l.stage.standing := standing_listener hid
  have hactive : (g.standing (.listener id)).active = true := by rw [hst]; cases l.stage <;> rfl
  have hturn : (g.standing (.listener id)).turn = .none := by rw [hst]; cases l.stage <;> rfl
  by_cases hw : .listener id ∈ g.radio.waiting
  · exact .inr hw
  · have hradio : (g.standing (.listener id)).radio ≠ .none →
        g.radio.holder = some (.listener id) := by
      intro hne
      have hm := (h.orderly.radio.mem (.listener id)).mpr hne
      rw [queues, Lock.parties, List.mem_append] at hm
      simpa using hm.resolve_right hw
    have hawake : .listener id ∈ g.awake :=
      (h.orderly.mem _).mpr ⟨hactive, fun hne => absurd hturn hne, hradio⟩
    simp only [awake, Multiset.mem_add, Multiset.mem_coe, List.mem_map] at hawake
    refine .inl ?_
    rcases hawake with hgo | ⟨⟨due, p⟩, hs, rfl⟩
    · exact ⟨g.clock, .inr ⟨Nat.le_refl _, goes_iff.mpr hgo⟩⟩
    · exact ⟨due, .inl ⟨hs, hp _ hs⟩⟩

theorem Alive.listener? (h : Alive g id t) : ∃ k, g.listener? id = some ⟨t, k⟩ := by
  cases h with
  | working hid => exact ⟨_, hid⟩
  | crashed hid => exact ⟨_, hid⟩
  | restarting hid => exact ⟨_, hid⟩

theorem Alive.after (h : Alive g id t) (ho : InOrder g) (hp : Punctual g) (hm : m ≠ .dismiss id) :
    Alive (g.after m) id t := by
  obtain ⟨k, hid⟩ := h.listener?
  obtain ⟨k', hid', hstep⟩ := listener?_after ho hid hm
  have hworks : k'.running = true → Alive (g.after m) id t := fun hk =>
    .working hid' hk ((ho.after m).roused (hp.after m) hid')
  rcases hstep with ⟨rfl, hs⟩ | ⟨-, -, hfollowed⟩
  · cases h with
    | working hid'' hk => cases hid.symm.trans hid''; exact hworks hk
    | crashed hid'' hw => cases hid.symm.trans hid''; exact .crashed hid' (hs.goes hw)
    | restarting hid'' hw => cases hid.symm.trans hid''; exact .restarting hid' (hw.spared hs)
  · cases k' with
    | crashed reason => exact .crashed hid' hfollowed
    | restarting => exact .restarting hid' hfollowed
    | _ => exact hworks rfl

theorem Alive.through (h : Alive g id t) (ho : InOrder g) (hp : Punctual g) (more : List Move)
    (hm : .dismiss id ∉ more) : Alive (g.through more) id t := by
  induction more generalizing g with
  | nil => exact h
  | cons m more ih =>
    rw [List.mem_cons, not_or] at hm
    exact ih (h.after ho hp (Ne.symm hm.1)) (ho.after m) (hp.after m) hm.2

theorem alive_enlist (ho : InOrder g) (hp : Punctual g) (t : Timing) :
    Alive (g.after (.enlist t)) g.nextId t := by
  have hid : (g.after (.enlist t)).listener? g.nextId = some ⟨t, .starting⟩ := by
    rw [Gateway.after, listener?_enlist g t ho.listener?_next, Function.update_self]
  exact .working hid rfl ((ho.enlist t).roused (hp.after (.enlist t)) hid)

-- ---------------------------------------------------------------------------
-- After a crash
-- ---------------------------------------------------------------------------

/-- The loop is to start again at `due`. -/
structure Pausing (g : Gateway) (id : Nat) (t : Timing) (due : Nat) : Prop where
  listener? : g.listener? id = some ⟨t, .restarting⟩
  due : Due g (.listener id) due

/-- The loop starts again, not before `due`. -/
structure Restarts (g : Gateway) (m : Move) (id : Nat) (t : Timing) (due : Nat) : Prop where
  move : m = .resume (.listener id)
  clock : due ≤ g.clock
  listener? : (g.after m).listener? id = some ⟨t, .starting⟩
  goes : (g.after m).goes (.listener id) = true

theorem InOrder.not_asleep (h : InOrder g) (hp : g.goes p = true) (due : Nat) :
    (due, p) ∉ g.asleep := by
  intro hs
  have hnd : g.awake.Nodup := h.orderly.nodup
  rw [awake, Multiset.nodup_add] at hnd
  have hgo : p ∈ (g.ready : Multiset Party) + (g.yielding : Multiset Party) := by
    simpa [goes] using hp
  exact Multiset.disjoint_left.mp hnd.2.2 hgo (List.mem_map.mpr ⟨_, hs, rfl⟩)

/-- Nobody goes on before it is due. -/
theorem InOrder.due_le_clock (h : InOrder g) (hp : g.goes p = true) (hdue : Due g p due) :
    due ≤ g.clock := by
  rcases hdue with ⟨hs, -⟩ | ⟨hle, -⟩
  · exact absurd hs (h.not_asleep hp due)
  · exact hle

theorem crash_reported {reason : String} (hid : g.listener? id = some ⟨t, .crashed reason⟩)
    (hp : g.goes (.listener id) = true) :
    Pausing (g.after (.resume (.listener id))) id t (g.clock + t.errorBackoff) := by
  let reported := ((g.depart (.listener id)).note [.loopCrashed reason]).setListener id .restarting
  have hdue := due_sleep reported (.listener id) t.errorBackoff
  have hclock : reported.clock = g.clock := by simp [reported]
  have hid' : (g.depart (.listener id)).listener? id = some ⟨t, .crashed reason⟩ := by
    simpa using hid
  have hafter : g.after (.resume (.listener id)) = reported.sleep (.listener id)
      t.errorBackoff := by
    rw [after_resume hp]
    simp only [resume, resumeListener, hid']
    rfl
  rw [hafter]
  exact ⟨by simp [reported, hid], hclock ▸ hdue⟩

theorem Pausing.after (h : Pausing g id t due) (ho : InOrder g) (m : Move) :
    Pausing (g.after m) id t due ∨ m = .dismiss id ∨ Restarts g m id t due := by
  by_cases hm : m = .dismiss id
  · exact .inr (.inl hm)
  · obtain ⟨k', hid', ⟨rfl, hs⟩ | ⟨rfl, hp, -⟩⟩ := listener?_after ho h.listener? hm
    · exact .inl ⟨hid', h.due.spared hs⟩
    · refine .inr (.inr ?_)
      have hid := h.listener?
      have hdue : due ≤ g.clock := ho.due_le_clock hp h.due
      have hafter : g.after (.resume (.listener id)) =
          ((g.depart (.listener id)).setListener id .starting).wake (.listener id) := by
        rw [after_resume hp]
        simp [resume, resumeListener, hid]
      exact ⟨rfl, hdue, by simp [hafter, hid], hafter ▸ goes_wake _ _⟩

/-- Whatever happens meanwhile, a loop that pauses starts again when it is due, or it is
dismissed. -/
theorem Pausing.through (h : Pausing g id t due) (ho : InOrder g) (more : List Move) :
    Pausing (g.through more) id t due ∨
      ∃ before m rest, more = before ++ m :: rest ∧ Pausing (g.through before) id t due ∧
        (m = .dismiss id ∨ Restarts (g.through before) m id t due) := by
  have hstep (g : Gateway) (m : Move) (h : InOrder g ∧ Pausing g id t due) :
      (InOrder (g.after m) ∧ Pausing (g.after m) id t due) ∨ m = .dismiss id ∨
      Restarts g m id t due :=
    (h.2.after h.1 m).imp_left fun hpause => ⟨h.1.after m, hpause⟩
  refine (through_until hstep ⟨ho, h⟩ more).imp And.right ?_
  rintro ⟨before, m, rest, hmore, hb, hq⟩
  exact ⟨before, m, rest, hmore, hb.2, hq⟩

end RadioGateway.Gateway
