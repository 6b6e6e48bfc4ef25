import RadioGateway.Proofs.Bystanders
import RadioGateway.Proofs.Serial

/-!
# Connects and disconnects take effect in the order they arrive

However requests, receive loops and the passing of time interleave, the connects and disconnects
come to what they come to when they are served one after another, in the order in which they ask for
their turn.
-/

namespace RadioGateway.Gateway

open Function (update)
open RadioGateway.Radio (Config RadioError Update)
open RadioGateway.Station (Backend Bench Device Hardware)

-- ---------------------------------------------------------------------------
-- What is seen of a run
-- ---------------------------------------------------------------------------

def Stage.arrival? : Stage → Option Change
  | .arrived r => r.change?
  | _ => none

def Stage.attempt (s : Station) : Stage → List (Except RadioError Device)
  | .waitingRadio (.attach c) =>
    match (s.beginAttach c).result with
    | .finished r => [r]
    | .paused _ _ => []
  | .opening _ o => [(s.finishAttach o).result]
  | _ => []

/-- The connect or disconnect that arrives at a move: it asks for its turn. -/
def arrivals (g : Gateway) : Move → List (Nat × Change)
  | .resume (.client id) =>
    if g.goes (.client id) then
      (((g.stage? id).bind Stage.arrival?).map fun x => (id, x)).toList
    else []
  | _ => []

def attempts (g : Gateway) : Move → List (Except RadioError Device)
  | .resume (.client id) =>
    if g.goes (.client id) then (g.stage? id).toList.flatMap (Stage.attempt g.station) else []
  | _ => []

def endings (g : Gateway) (m : Move) : List (Nat × Outcome) :=
  g.turn.parties.filterMap fun
    | .client id => ((g.after m).outcome? id).map fun o => (id, o)
    | .listener _ => none

-- ---------------------------------------------------------------------------
-- The queue of those who have arrived
-- ---------------------------------------------------------------------------

/-- Where the request stands whose turn it is, after all that was served as in `s`, with `n`
openings that are over. -/
inductive Front (radio : Nat → Except RadioError Device) (s : Serial) (g : Gateway) (n id : Nat) :
    Change → Prop
  | turn {x : Change} (hn : n = s.attempts) (hd : Settled g)
      (hid : g.stage? id = some (.waitingTurn x.request)) : Front radio s g n id x
  | attach {u : Update} {c : Config} (hn : n = s.attempts) (hd : Settled g)
      (hc : c = s.link.config.merge u) (hv : c.fault? = none)
      (hid : g.stage? id = some (.waitingRadio (.attach c))) : Front radio s g n id (.connect u)
  | opening {u : Update} {c : Config} {h : Hardware} (hn : n = s.attempts)
      (hc : c = s.link.config.merge u) (hv : c.fault? = none) (hb : g.station.backend = .hardware h)
      (hd : g.station.tuned = none) (hid : g.stage? id = some (.opening c (h.opening c))) :
      Front radio s g n id (.connect u)
  | confirm {u : Update} {e : RadioError} {h : Hardware} (hn : n = s.attempts + 1)
      (hv : (s.link.config.merge u).fault? = none) (hr : radio s.attempts = .error e)
      (hb : g.station.backend = .hardware h) (hd : g.station.tuned = none)
      (hid : g.stage? id = some (.waitingRadio (.confirm e))) : Front radio s g n id (.connect u)
  | detach (hn : n = s.attempts) (hd : Settled g)
      (hid : g.stage? id = some (.waitingRadio .detach)) : Front radio s g n id .disconnect

/-- All that has been served has left what it leaves in `s`; `waiting` have arrived since. -/
structure Line (radio : Nat → Except RadioError Device) (books : List Config)
    (g : Gateway) (n : Nat) (s : Serial) (waiting : List (Nat × Change)) : Prop where
  parties : g.turn.parties = waiting.map fun w => .client w.1
  link : g.link = s.link
  booked : g.station.backend = .hardware .scripted →
    g.station.bench.script.opened = books ++ committed s.outcomes
  front : ∀ w ∈ waiting.head?, Front radio s g n w.1 w.2
  behind : ∀ w ∈ waiting.tail, g.stage? w.1 = some (.waitingTurn w.2.request)
  idle : waiting = [] → n = s.attempts ∧ Settled g

variable {radio : Nat → Except RadioError Device} {books : List Config} {g g' : Gateway}
  {n id : Nat} {s : Serial} {u : Update} {x : Change} {w : Nat × Change}
  {waiting rest : List (Nat × Change)}

/-- The request whose turn it is has a claim on the turn and no outcome yet. -/
theorem Front.stage (h : Front radio s g n id x) :
    ∃ k, g.stage? id = some k ∧ k.standing.turn ≠ .none := by
  cases h with
  | turn hn hd hid => exact ⟨_, hid, by rintro ⟨⟩⟩
  | attach hn hd hc hv hid => exact ⟨_, hid, by rintro ⟨⟩⟩
  | opening hn hc hv hb hd hid => exact ⟨_, hid, by rintro ⟨⟩⟩
  | confirm hn hv hr hb hd hid => exact ⟨_, hid, by rintro ⟨⟩⟩
  | detach hn hd hid => exact ⟨_, hid, by rintro ⟨⟩⟩

theorem Front.congr (h : Front radio s g n id x) (hb : g'.station.backend = g.station.backend)
    (hd : g'.station.tuned = g.station.tuned) (hl : g'.link = g.link)
    (hid' : g'.stage? id = g.stage? id) : Front radio s g' n id x := by
  cases h with
  | turn hn hs hid => exact .turn hn (hs.congr hb hd hl) (hid'.trans hid)
  | attach hn hs hc hv hid => exact .attach hn (hs.congr hb hd hl) hc hv (hid'.trans hid)
  | opening hn hc hv hb' hd' hid =>
    exact .opening hn hc hv (hb.trans hb') (hd.trans hd') (hid'.trans hid)
  | confirm hn hv hr hb' hd' hid =>
    exact .confirm hn hv hr (hb.trans hb') (hd.trans hd') (hid'.trans hid)
  | detach hn hs hid => exact .detach hn (hs.congr hb hd hl) (hid'.trans hid)

theorem outcome?_eq_none_of_stage {k : Stage} (hid : g.stage? id = some k)
    (hk : k.standing.turn ≠ .none) : g.outcome? id = none := by
  unfold outcome?
  split
  · rename_i hf
    rw [hid] at hf
    cases hf
    exact absurd rfl hk
  · rfl

namespace Line

theorem stage (h : Line radio books g n s waiting) (hw : w ∈ waiting) :
    ∃ k, g.stage? w.1 = some k ∧ k.standing.turn ≠ .none := by
  cases waiting with
  | nil => cases hw
  | cons v rest =>
    rcases List.mem_cons.mp hw with rfl | hr
    · exact (h.front w rfl).stage
    · exact ⟨_, h.behind w hr, by rintro ⟨⟩⟩

theorem outcome?_eq_none (h : Line radio books g n s waiting) (hw : w ∈ waiting) :
    g.outcome? w.1 = none := by
  obtain ⟨k, hid, hk⟩ := h.stage hw
  exact outcome?_eq_none_of_stage hid hk

theorem ne_of_stage (h : Line radio books g n s waiting) {k : Stage} (hid : g.stage? id = some k)
    (hk : k.standing.turn = .none) (hw : w ∈ waiting) : w.1 ≠ id := by
  rintro rfl
  obtain ⟨k', hk', hne⟩ := h.stage hw
  rw [hid] at hk'
  exact hne (Option.some.inj hk' ▸ hk)

/-- What does not concern the link does not concern the line. -/
theorem aside (h : Line radio books g n s waiting) (ha : Aside g g') :
    Line radio books g' n s waiting := by
  refine ⟨?_, ha.link.trans h.link, ?_, ?_, ?_, fun he => ⟨(h.idle he).1,
    (h.idle he).2.congr ha.station.backend ha.station.tuned ha.link⟩⟩
  · rw [ha.turn]; exact h.parties
  · rw [ha.station.backend, ha.station.opened]; exact h.booked
  · intro w hw
    have hf := h.front w hw
    obtain ⟨k, hk, hne⟩ := hf.stage
    exact hf.congr ha.station.backend ha.station.tuned ha.link ((ha.stage _ _ hk hne).trans hk.symm)
  · intro w hw
    exact ha.stage _ _ (h.behind w hw) (by rintro ⟨⟩)

theorem ask (h : Line radio books g n s waiting) (ho : g.turn.Sound)
    (hid : g.stage? id = some (.arrived x.request)) :
    Line radio books (g.seekTurn id x.request) n s (waiting ++ [(id, x)]) := by
  have hstage : ∀ w ∈ waiting, (g.seekTurn id x.request).stage? w.1 = g.stage? w.1 := by
    intro w hw
    have := h.ne_of_stage hid rfl hw
    simp [this]
  have hnew : (g.seekTurn id x.request).stage? id = some (.waitingTurn x.request) := by
    simp [hid]
  refine ⟨?_, by simpa using h.link, by simpa using h.booked, ?_, ?_, by simp⟩
  · simp [Lock.parties_acquire _ ho, h.parties]
  · intro w hw
    cases waiting with
    | nil =>
      obtain rfl : (id, x) = w := by simpa using hw
      obtain ⟨hn, hs⟩ := h.idle rfl
      exact .turn hn (hs.congr (by simp) (by simp) (by simp)) hnew
    | cons v rest =>
      obtain rfl : v = w := by simpa using hw
      exact (h.front v rfl).congr (by simp) (by simp) (by simp) (hstage v (by simp))
  · intro w hw
    cases waiting with
    | nil => cases hw
    | cons v rest =>
      rcases List.mem_append.mp (show w ∈ rest ++ [(id, x)] from hw) with hr | hr
      · rw [hstage w (List.mem_cons_of_mem v hr)]; exact h.behind w hr
      · obtain rfl := List.mem_singleton.mp hr
        exact hnew

variable {claim : Party → Claim}

theorem holder (h : Line radio books g n s (w :: rest)) (ho : g.turn.Serves claim) :
    g.turn.holder = some (.client w.1) := by
  have hp := h.parties
  unfold Lock.parties at hp
  cases hh : g.turn.holder with
  | none => simp [hh, ho.sound hh] at hp
  | some p => exact congrArg some (List.cons.inj (by simpa [hh] using hp)).1

/-- Nobody is in the line twice. -/
theorem ne_front (h : Line radio books g n s (w :: rest)) (ho : g.turn.Serves claim)
    {v : Nat × Change} (hv : v ∈ rest) : v.1 ≠ w.1 := by
  have hnd := ho.nodup
  rw [h.parties, List.map_cons, List.nodup_cons] at hnd
  intro he
  exact hnd.1 (List.mem_map.mpr ⟨v, hv, by rw [he]⟩)

theorem proceed (h : Line radio books g n s (w :: rest)) (ho : g.turn.Serves claim) {n' : Nat}
    {o : Option Stage}
    (hl : g'.link = g.link) (ht : g'.turn = g.turn) (hb : g'.station.backend = g.station.backend)
    (hop : g'.station.bench.script.opened = g.station.bench.script.opened)
    (hst : g'.stage? = update g.stage? w.1 o) (hf : Front radio s g' n' w.1 w.2) :
    Line radio books g' n' s (w :: rest) := by
  refine ⟨?_, hl.trans h.link, ?_, ?_, ?_, by simp⟩
  · rw [ht]; exact h.parties
  · rw [hb, hop]; exact h.booked
  · intro v hv
    obtain rfl : w = v := by simpa using hv
    exact hf
  · intro v hv
    rw [hst, Function.update_of_ne (h.ne_front ho hv)]
    exact h.behind v hv

theorem done (h : Line radio books g n s (w :: rest)) (ho : g.turn.Serves claim) {s' : Serial}
    {o : Option Stage} {n' : Nat} (hn : n' = s'.attempts) (hd : Settled g') (hl : g'.link = s'.link)
    (ht : g'.turn = g.turn.release.1)
    (hop : g'.station.backend = .hardware .scripted →
      g'.station.bench.script.opened = books ++ committed s'.outcomes)
    (hst : g'.stage? = update g.stage? w.1 o) :
    Line radio books g' n' s' rest := by
  have hstage : ∀ v ∈ rest, g'.stage? v.1 = some (.waitingTurn v.2.request) := by
    intro v hv
    rw [hst, Function.update_of_ne (h.ne_front ho hv)]
    exact h.behind v hv
  refine ⟨?_, hl, hop, ?_, ?_, fun _ => ⟨hn, hd⟩⟩
  · have hp := h.parties
    rw [Lock.parties_eq_cons (h.holder ho)] at hp
    rw [ht]
    exact (List.cons.inj hp).2
  · intro v hv
    exact .turn hn hd (hstage v (List.mem_of_mem_head? hv))
  · intro v hv
    exact hstage v (List.mem_of_mem_tail hv)

-- ---------------------------------------------------------------------------
-- Steps of the request whose turn it is
-- ---------------------------------------------------------------------------

/-- The request whose turn it is is still in the line, or it is done and has its outcome. -/
def Serves (radio : Nat → Except RadioError Device) (books : List Config) (g' : Gateway) (n' : Nat)
    (s : Serial) (w : Nat × Change) (rest : List (Nat × Change)) : Prop :=
  Line radio books g' n' s (w :: rest) ∨
  ∃ o, g'.stage? w.1 = some (.finished o) ∧ (s.serve radio w.2).outcomes = s.outcomes ++ [o] ∧
    n' = (s.serve radio w.2).attempts ∧ Line radio books g' n' (s.serve radio w.2) rest

theorem committed_error (os : List Outcome) (e : GatewayError) :
    committed (os ++ [.error e]) = committed os := by simp [committed]

theorem committed_disconnected (os : List Outcome) :
    committed (os ++ [.ok .disconnected]) = committed os := by simp [committed]

theorem committed_connected (os : List Outcome) (device : Device) (c : Config) :
    committed (os ++ [.ok (.connected device c)]) = committed os ++ [c] := by simp [committed]

theorem takeTurn (h : Line radio books g n s (w :: rest)) (ho : g.turn.Serves claim)
    (hn : n = s.attempts) (hd : Settled g) {k : Stage} (hid : g.stage? w.1 = some k) :
    Serves radio books (g.takeTurn w.1 w.2.request) n s w rest := by
  obtain ⟨id, x⟩ := w
  cases x with
  | disconnect =>
    simp only [Gateway.takeTurn, Change.request]
    exact .inl (h.proceed ho (by simp) (by simp) (by simp) (by simp) (by simp [hid]; rfl)
      (.detach hn (hd.congr (by simp) (by simp) (by simp)) (by simp [hid])))
  | connect u =>
    simp only [Gateway.takeTurn, Change.request]
    split
    · rename_i fault hf
      have hs : s.serve radio (.connect u) =
          { s with outcomes := s.outcomes ++ [.error (.configuration fault.message)] } := by
        rw [h.link] at hf
        simp only [Serial.serve, hf]
      refine .inr ⟨.error (.configuration fault.message), by simp [hid], by rw [hs],
        by rw [hs]; exact hn, ?_⟩
      rw [hs]
      refine h.done ho hn (hd.congr (by simp) (by simp) (by simp)) (by simpa using h.link)
        (by simp) ?_ (by simp [hid]; rfl)
      simpa [committed_error] using h.booked
    · rename_i hf
      refine .inl (h.proceed ho (by simp) (by simp) (by simp) (by simp) (by simp [hid]; rfl)
        (.attach hn (hd.congr (by simp) (by simp) (by simp)) (by rw [h.link]) hf (by simp [hid])))

theorem opened (h : Line radio books g n s ((id, .connect u) :: rest)) (ho : g.turn.Serves claim)
    {k : Stage} (hid : g.stage? id = some k) {c : Config} (hc : c = s.link.config.merge u)
    (hv : c.fault? = none) {r : Except RadioError Device} (hr : radio s.attempts = r)
    {st' : Station} (events : List Log.Event) (hb : st'.backend = g.station.backend)
    (hst : match r with
      | .ok _ => (∀ h, st'.backend = .hardware h → st'.tuned = some c) ∧
          (st'.backend = .hardware .scripted →
            st'.bench.script.opened = g.station.bench.script.opened ++ [c])
      | .error _ => (∃ h, st'.backend = .hardware h) ∧ st'.tuned = none ∧
          st'.bench.script.opened = g.station.bench.script.opened) :
    Serves radio books ((g.withStation st' events).opened id c r) (s.attempts + 1) s
      (id, .connect u) rest := by
  subst hc
  cases r with
  | ok device =>
    have hs : s.serve radio (.connect u) =
        { link := { config := s.link.config.merge u, connected := true }
          attempts := s.attempts + 1
          outcomes := s.outcomes ++ [.ok (.connected device (s.link.config.merge u))] } := by
      simp only [Serial.serve, hv, hr]
    refine .inr ⟨_, by simp [Gateway.opened, commit, hid]; rfl, by rw [hs], by rw [hs], ?_⟩
    rw [hs]
    refine h.done ho rfl ?_ (by simp [Gateway.opened, commit]) (by simp [Gateway.opened, commit]) ?_
      (by simp [Gateway.opened, commit, hid]; rfl)
    · intro hw hb'
      simpa [Gateway.opened, commit] using hst.1 hw (by simpa [Gateway.opened, commit] using hb')
    simp only [Gateway.opened, commit, finish_keeps, leaveTurn_keeps, note_keeps, withLink_keeps,
      leaveRadio_keeps, withStation_keeps, committed_connected]
    intro hscripted
    rw [hst.2 hscripted, h.booked (hb ▸ hscripted), List.append_assoc]
  | error e =>
    obtain ⟨⟨hw, hw'⟩, hd, hop⟩ := hst
    refine .inl (h.proceed ho (by simp [Gateway.opened]) (by simp [Gateway.opened])
      (by simpa [Gateway.opened] using hb) (by simpa [Gateway.opened] using hop)
      (by simp [Gateway.opened, hid]; rfl) ?_)
    exact .confirm rfl hv hr (by simpa [Gateway.opened] using hw')
      (by simpa [Gateway.opened] using hd)
      (by simp [Gateway.opened, hid])

theorem opens (h : Line radio books g n s ((id, .connect u) :: rest)) (ho : g.turn.Serves claim)
    {k : Stage} (hid : g.stage? id = some k) {c : Config} (hc : c = s.link.config.merge u)
    (hv : c.fault? = none) {hw : Hardware} (hb : g.station.backend = .hardware hw)
    {r : Except RadioError Device} (hr : radio s.attempts = r) {st' : Station}
    (events : List Log.Event) (hopens : Station.Opens hw c g.station st' r) :
    Serves radio books ((g.withStation st' events).opened id c r) (s.attempts + 1) s
      (id, .connect u) rest := by
  refine h.opened ho hid hc hv hr _ ?_ ?_
  · cases r <;> exact hopens.1
  · cases r with
    | ok device =>
      refine ⟨fun _ _ => hopens.2.1, fun hscripted => ?_⟩
      have : hw = .scripted := by
        rw [hopens.1, hb] at hscripted
        exact Backend.hardware.inj hscripted
      simpa [this, Hardware.booked] using hopens.2.2
    | error e => exact ⟨⟨hw, hopens.1.trans hb⟩, hopens.2⟩

theorem attach (h : Line radio books g n s ((id, .connect u) :: rest)) (ho : g.turn.Serves claim)
    (hn : n = s.attempts) {c : Config} (hc : c = s.link.config.merge u) (hv : c.fault? = none)
    (hid : g.stage? id = some (.waitingRadio (.attach c)))
    (hr : ∀ r ∈ (Stage.waitingRadio (.attach c)).attempt g.station, radio n = r) :
    Serves radio books (g.useRadio id (.attach c))
      (n + ((Stage.waitingRadio (.attach c)).attempt g.station).length) s
      (id, .connect u) rest := by
  subst hn
  cases hb : g.station.backend with
  | simulated =>
    have he := Station.beginAttach_simulated hb c
    simp only [Stage.attempt, he, List.mem_singleton, forall_eq] at hr
    simp only [useRadio, Stage.attempt, he, List.length_singleton]
    exact h.opened ho hid hc hv hr _ rfl (by simp [hb])
  | hardware hw =>
    have hopens := Station.opens_beginAttach (c := c) hb
    simp only [Stage.attempt] at hr
    simp only [useRadio, Stage.attempt]
    generalize g.station.beginAttach c = e at hr hopens ⊢
    rcases e with ⟨st', events, r | ⟨ms, o⟩⟩
    · simp only [List.mem_singleton, forall_eq] at hr
      exact h.opens ho hid hc hv hb hr events hopens
    · obtain ⟨rfl, hb', hd, hop⟩ := hopens
      refine .inl (h.proceed ho (by simp) (by simp) (by simpa using hb') (by simpa using hop)
        (by simp [hid]; rfl) ?_)
      exact .opening rfl hc hv (by simpa using hb'.trans hb) (by simpa using hd) (by simp [hid])

theorem finishAttach (h : Line radio books g n s ((id, .connect u) :: rest))
    (ho : g.turn.Serves claim) (hn : n = s.attempts) {c : Config} {hw : Hardware}
    (hc : c = s.link.config.merge u) (hv : c.fault? = none) (hb : g.station.backend = .hardware hw)
    (hd : g.station.tuned = none) (hid : g.stage? id = some (.opening c (hw.opening c)))
    (hr : radio n = (g.station.finishAttach (hw.opening c)).result) :
    Serves radio books ((g.withStation (g.station.finishAttach (hw.opening c)).state
      (g.station.finishAttach (hw.opening c)).log).opened id c
      (g.station.finishAttach (hw.opening c)).result) (n + 1) s (id, .connect u) rest := by
  subst hn
  exact h.opens ho hid hc hv hb hr _ (Station.opens_finishAttach hd)

theorem giveUp (h : Line radio books g n s ((id, .connect u) :: rest)) (ho : g.turn.Serves claim)
    (hn : n = s.attempts + 1) {e : RadioError} {hw : Hardware}
    (hv : (s.link.config.merge u).fault? = none) (hr : radio s.attempts = .error e)
    (hb : g.station.backend = .hardware hw) (hd : g.station.tuned = none) {k : Stage}
    (hid : g.stage? id = some k) :
    Serves radio books (g.useRadio id (.confirm e)) n s (id, .connect u) rest := by
  have hs : s.serve radio (.connect u) =
      { link := { s.link with connected := false }
        attempts := s.attempts + 1
        outcomes := s.outcomes ++ [.error (.driver e)] } := by
    simp only [Serial.serve, hv, hr]
  have hlost : g.station.attached = false := by simp [Station.attached_eq_isSome_tuned, hd]
  have hsim : g.station.simulated = false := by simp [Station.simulated, hb]
  refine .inr ⟨.error (.driver e), by simp [useRadio, Gateway.giveUp, hid], by rw [hs],
    by rw [hs]; exact hn, ?_⟩
  rw [hs]
  refine h.done ho hn ?_ ?_ (by simp [useRadio, Gateway.giveUp]) ?_
    (by simp [useRadio, Gateway.giveUp, hid]; rfl)
  · intro _ _
    simp [useRadio, Gateway.giveUp, hlost, hsim, hd]
  · simp [useRadio, Gateway.giveUp, hlost, hsim, h.link]
  · simpa [useRadio, Gateway.giveUp, committed_error] using h.booked

theorem detach (h : Line radio books g n s ((id, .disconnect) :: rest)) (ho : g.turn.Serves claim)
    (hn : n = s.attempts) {k : Stage} (hid : g.stage? id = some k) :
    Serves radio books (g.useRadio id .detach) n s (id, .disconnect) rest := by
  have hk := g.station.release_keeps
  refine .inr ⟨.ok .disconnected, by simp [useRadio, hid], rfl, hn, ?_⟩
  refine h.done ho hn ?_ (by simp [useRadio, h.link, Serial.serve]) (by simp [useRadio]) ?_
    (by simp [useRadio, hid]; rfl)
  · intro hw hb
    have hb' : g.station.backend = .hardware hw := by
      simpa [useRadio, Station.detach, hk.1] using hb
    simpa [useRadio, Station.detach] using g.station.tuned_release hb'
  simpa [useRadio, Station.detach, hk.1, hk.2.1, Serial.serve, committed_disconnected]
    using h.booked

theorem serves (h : Line radio books g n s (w :: rest)) (ho : g.turn.Serves claim) {k : Stage}
    (hid : g.stage? w.1 = some k) (hr : ∀ r ∈ k.attempt g.station, radio n = r) :
    Serves radio books (g.resumeClient w.1) (n + (k.attempt g.station).length) s w rest := by
  obtain ⟨id, x⟩ := w
  have hstage {k' : Stage} (hk : g.stage? id = some k') : k = k' :=
    Option.some.inj (hid.symm.trans hk)
  cases h.front _ rfl with
  | turn hn hd hk =>
    obtain rfl := hstage hk
    simpa [Gateway.resumeClient, hk, Stage.attempt] using h.takeTurn ho hn hd hk
  | attach hn hd hc hv hk =>
    obtain rfl := hstage hk
    simpa [Gateway.resumeClient, hk] using h.attach ho hn hc hv hk hr
  | opening hn hc hv hb hd hk =>
    obtain rfl := hstage hk
    simp only [Stage.attempt, List.mem_singleton, forall_eq] at hr
    simpa [Gateway.resumeClient, hk, Stage.attempt] using h.finishAttach ho hn hc hv hb hd hk hr
  | confirm hn hv hr' hb hd hk =>
    obtain rfl := hstage hk
    simpa [Gateway.resumeClient, hk, Stage.attempt] using h.giveUp ho hn hv hr' hb hd hk
  | detach hn hd hk =>
    obtain rfl := hstage hk
    simpa [Gateway.resumeClient, hk, Stage.attempt] using h.detach ho hn hk

end Line

-- ---------------------------------------------------------------------------
-- Moves
-- ---------------------------------------------------------------------------

theorem endings_eq (h : Line radio books g n s waiting) (m : Move) :
    endings g m = waiting.filterMap fun w => ((g.after m).outcome? w.1).map fun o => (w.1, o) := by
  rw [endings, h.parties, List.filterMap_map]
  rfl

/-- Nobody has an outcome who is still in the line after a move. -/
theorem endings_eq_nil {m : Move} {n' : Nat} (h : Line radio books g n s waiting)
    (more : List (Nat × Change))
    (h' : Line radio books (g.after m) n' s (waiting ++ more)) : endings g m = [] := by
  rw [endings_eq h]
  refine List.filterMap_eq_nil_iff.mpr fun w hw => ?_
  rw [h'.outcome?_eq_none (List.mem_append_left more hw)]
  rfl

/-- After a move whoever had the turn may have its outcome, and nobody else. -/
theorem endings_eq_singleton {m : Move} {n' : Nat} {s' : Serial} {o : Outcome}
    (h : Line radio books g n s (w :: rest)) (h' : Line radio books (g.after m) n' s' rest)
    (ho : (g.after m).stage? w.1 = some (.finished o)) : endings g m = [(w.1, o)] := by
  have hout : (g.after m).outcome? w.1 = some o := (outcome?_eq_some _ _).mpr ho
  have hrest : rest.filterMap (fun w => ((g.after m).outcome? w.1).map fun o => (w.1, o)) = [] :=
    List.filterMap_eq_nil_iff.mpr fun v hv => by rw [h'.outcome?_eq_none hv]; rfl
  rw [endings_eq h, List.filterMap_cons, hrest, hout]
  rfl

/-- What a move may come to: the line is longer by those who arrive, or its first is served. -/
def Advances (radio : Nat → Except RadioError Device) (books : List Config) (g : Gateway) (m : Move)
    (n : Nat) (s : Serial) (waiting : List (Nat × Change)) : Prop :=
  (Line radio books (g.after m) (n + (attempts g m).length) s (waiting ++ arrivals g m) ∧
    endings g m = []) ∨
  ∃ w rest o, waiting = w :: rest ∧ arrivals g m = [] ∧ endings g m = [(w.1, o)] ∧
    (s.serve radio w.2).outcomes = s.outcomes ++ [o] ∧
    Line radio books (g.after m) (n + (attempts g m).length) (s.serve radio w.2) rest

theorem Line.stays {m : Move} (h : Line radio books g n s waiting) (hm : attempts g m = [])
    (ha : arrivals g m = []) (hg : Aside g (g.after m)) : Advances radio books g m n s waiting := by
  have hl := h.aside hg
  refine .inl ⟨?_, endings_eq_nil h [] (by rwa [List.append_nil])⟩
  rwa [hm, ha, List.append_nil]

section Clients

variable {k : Stage}

theorem after_resumeClient (hp : g.goes (.client id) = true) :
    g.after (.resume (.client id)) = (g.depart (.client id)).resumeClient id := after_resume hp

theorem attempts_resumeClient (hp : g.goes (.client id) = true) (hid : g.stage? id = some k) :
    attempts g (.resume (.client id)) = k.attempt g.station := by
  simp [attempts, hp, hid]

theorem arrivals_resumeClient (hp : g.goes (.client id) = true) (hid : g.stage? id = some k) :
    arrivals g (.resume (.client id)) = (k.arrival?.map fun x => (id, x)).toList := by
  simp [arrivals, hp, hid]

theorem serves_depart (ho : InOrder g) (p : Party) :
    (g.depart p).turn.Serves (Standing.turn ∘ g.standing) := by
  rw [(depart_keeps g p).2.2.2.1]
  exact ho.orderly.turn

theorem Line.sends (h : Line radio books g n s waiting) (hp : g.goes (.client id) = true)
    (hid : g.stage? id = some k) (hk : k.sends = true) :
    Advances radio books g (.resume (.client id)) n s waiting := by
  have hid' : (g.depart (.client id)).stage? id = some k := by simpa using hid
  refine h.stays ?_ ?_ ?_
  · rw [attempts_resumeClient hp hid]
    unfold Stage.sends at hk
    split at hk <;> first | rfl | cases hk
  · rw [arrivals_resumeClient hp hid]
    unfold Stage.sends at hk
    split at hk <;> first | rfl | cases hk
  · rw [after_resumeClient hp]
    exact (aside_depart _).trans (aside_resumeClient hid' hk)

theorem Line.arrives (h : Line radio books g n s waiting) (ho : InOrder g)
    (hp : g.goes (.client id) = true) (hid : g.stage? id = some (.arrived x.request)) :
    Advances radio books g (.resume (.client id)) n s waiting := by
  have hl := (h.aside (aside_depart (.client id))).ask (serves_depart ho _).sound
    (x := x) (by simpa using hid)
  have hstep : g.after (.resume (.client id)) = (g.depart (.client id)).seekTurn id x.request := by
    rw [after_resumeClient hp]
    cases x <;> simp [Gateway.resumeClient, hid, Change.request]
  have harr : arrivals g (.resume (.client id)) = [(id, x)] := by
    rw [arrivals_resumeClient hp hid]
    cases x <;> rfl
  rw [← hstep] at hl
  refine .inl ⟨?_, endings_eq_nil h _ hl⟩
  rw [harr, attempts_resumeClient hp hid]
  exact hl

theorem Line.turns (h : Line radio books g n s waiting) (ho : InOrder g)
    (hp : g.goes (.client id) = true) (hid : g.stage? id = some k) (ha : k.arrival? = none)
    (ht : k.standing.turn ≠ .none)
    (hr : ∀ r ∈ attempts g (.resume (.client id)), radio n = r) :
    Advances radio books g (.resume (.client id)) n s waiting := by
  have hholder := ho.holds_turn hp (by rwa [standing_client hid])
  have harr : arrivals g (.resume (.client id)) = [] := by simp [arrivals_resumeClient hp hid, ha]
  cases waiting with
  | nil =>
    have := Lock.mem_parties_of_holder hholder
    rw [h.parties] at this
    cases this
  | cons w rest =>
    have hw := h.holder ho.orderly.turn
    obtain rfl : id = w.1 := by simpa using hholder.symm.trans hw
    have hstation : (g.depart (.client w.1)).station = g.station := by simp
    have hattempts := attempts_resumeClient hp hid
    rw [hattempts] at hr
    have hstep := (h.aside (aside_depart (.client w.1))).serves (serves_depart ho _)
      (by simpa using hid) (by rwa [hstation])
    rw [hstation, ← after_resumeClient hp, ← hattempts] at hstep
    rcases hstep with hl | ⟨o, hfin, hout, -, hl⟩
    · rw [← List.append_nil (w :: rest)] at hl
      exact .inl ⟨by rwa [harr], endings_eq_nil h [] hl⟩
    · exact .inr ⟨w, rest, o, rfl, harr, endings_eq_singleton h hl hfin, hout, hl⟩

theorem Line.resumeClient (h : Line radio books g n s waiting) (ho : InOrder g)
    (hp : g.goes (.client id) = true)
    (hr : ∀ r ∈ attempts g (.resume (.client id)), radio n = r) :
    Advances radio books g (.resume (.client id)) n s waiting := by
  cases hid : g.stage? id with
  | none =>
    refine h.stays (by simp [attempts, hid]) (by simp [arrivals, hid]) ?_
    rw [after_resumeClient hp]
    simpa [Gateway.resumeClient, hid] using aside_depart _
  | some k =>
    cases k with
    | arrived r =>
      cases r with
      | connect u => exact h.arrives (x := .connect u) ho hp hid
      | disconnect => exact h.arrives (x := .disconnect) ho hp hid
      | send payload => exact h.sends hp hid rfl
    | waitingTurn r => exact h.turns ho hp hid rfl (by rintro ⟨⟩) hr
    | waitingRadio e =>
      cases e with
      | send payload => exact h.sends hp hid rfl
      | attach | confirm | detach => exact h.turns ho hp hid rfl (by rintro ⟨⟩) hr
    | opening c o => exact h.turns ho hp hid rfl (by rintro ⟨⟩) hr
    | transmitting length looks => exact h.sends hp hid rfl
    | finished outcome =>
      refine h.stays (attempts_resumeClient hp hid) (arrivals_resumeClient hp hid) ?_
      rw [after_resumeClient hp]
      simpa [Gateway.resumeClient, hid] using aside_depart _

end Clients

theorem Line.after (h : Line radio books g n s waiting) (ho : InOrder g) (m : Move)
    (hr : ∀ r ∈ attempts g m, radio n = r) : Advances radio books g m n s waiting := by
  by_cases hm : ∃ p, m = .resume p
  · obtain ⟨p, rfl⟩ := hm
    cases hp : g.goes p with
    | false =>
      have hg : Aside g (g.after (.resume p)) := by
        rw [after_resume_of_not_goes hp]
        exact .of_keeps (.refl g.station) rfl rfl rfl
      cases p with
      | client id => exact h.stays (by simp [attempts, hp]) (by simp [arrivals, hp]) hg
      | listener id => exact h.stays rfl rfl hg
    | true =>
      have hafter := after_resume hp
      cases p with
      | listener id =>
        refine h.stays rfl rfl ?_
        rw [hafter]
        exact (aside_depart _).trans (aside_resumeListener _ id)
      | client id => exact h.resumeClient ho hp hr
  · have hg := aside_after ho m fun p he => hm ⟨p, he⟩
    cases m with
    | resume p => exact absurd ⟨p, rfl⟩ hm
    | _ => exact h.stays rfl rfl hg

-- ---------------------------------------------------------------------------
-- Runs
-- ---------------------------------------------------------------------------

theorem attempt_eq (st : Station) (k : Stage) : k.attempt st = [] ∨ ∃ r, k.attempt st = [r] := by
  unfold Stage.attempt
  split
  · split
    · exact .inr ⟨_, rfl⟩
    · exact .inl rfl
  · exact .inr ⟨_, rfl⟩
  · exact .inl rfl

theorem attempts_eq (g : Gateway) (m : Move) : attempts g m = [] ∨ ∃ r, attempts g m = [r] := by
  unfold attempts
  split
  · rename_i id
    split
    · cases g.stage? id with
      | none => exact .inl rfl
      | some k => simpa using attempt_eq g.station k
    · exact .inl rfl
  · exact .inl rfl

theorem line_start (backend : Backend) (bench : Bench) (capacity epoch : Nat) :
    Line radio bench.script.opened (start backend bench capacity epoch) 0 {} [] :=
  ⟨rfl, rfl, fun _ => by simp [start, committed], by rintro w ⟨⟩, by rintro w ⟨⟩,
    fun _ => ⟨rfl, fun _ _ => rfl⟩⟩

/-- At the end of a run some of those who arrived have been served, in order, and the others are in
line. -/
theorem line_through (backend : Backend) (bench : Bench) (capacity epoch : Nat) (moves : List Move)
    (hr : ∀ i r, (history attempts (start backend bench capacity epoch) moves)[i]? = some r →
      radio i = r) :
    ∃ served waiting : List (Nat × Change),
      history arrivals (start backend bench capacity epoch) moves = served ++ waiting ∧
      history endings (start backend bench capacity epoch) moves =
        (served.map Prod.fst).zip (serially radio (served.map Prod.snd)).outcomes ∧
      Line radio bench.script.opened ((start backend bench capacity epoch).through moves)
        (history attempts (start backend bench capacity epoch) moves).length
        (serially radio (served.map Prod.snd)) waiting := by
  induction moves using List.reverseRecOn with
  | nil => exact ⟨[], [], rfl, rfl, line_start backend bench capacity epoch⟩
  | append_singleton moves m ih =>
    simp only [history_snoc, through_snoc] at hr ⊢
    obtain ⟨served, waiting, harr, hend, hl⟩ := ih fun i r hi => hr i r (by
      rw [List.getElem?_append_left (List.getElem?_eq_some_iff.mp hi).1, hi])
    have ho := (inOrder_start backend bench capacity epoch).through moves
    generalize (start backend bench capacity epoch).through moves = g at hl ho hr ⊢
    have hnews : ∀ r ∈ attempts g m,
        radio (history attempts (start backend bench capacity epoch) moves).length = r := by
      intro r hm
      apply hr
      rcases attempts_eq g m with he | ⟨r', he⟩
      · simp [he] at hm
      · obtain rfl : r = r' := by simpa [he] using hm
        simp [he]
    rcases hl.after ho m hnews with ⟨hl', he⟩ | ⟨w, rest, o, rfl, ha, he, hout, hl'⟩
    · refine ⟨served, waiting ++ arrivals g m, by rw [harr, List.append_assoc], ?_, ?_⟩
      · rw [hend, he, List.append_nil]
      · rwa [List.length_append]
    · refine ⟨served ++ [w], rest, by simp [harr, ha], ?_, ?_⟩
      · rw [hend, he, List.map_append, List.map_append, List.map_singleton, List.map_singleton,
          serially_snoc, hout, List.zip_append (by simp [length_outcomes_serially])]
        rfl
      · rw [List.map_append, List.map_singleton, serially_snoc, List.length_append]
        exact hl'

/-- The `i`-th opening of a run. Openings that the run does not have do not matter. -/
def opening (openings : List (Except RadioError Device)) (i : Nat) : Except RadioError Device :=
  openings.getD i (.error .notConnected)

theorem opening_of_getElem? {openings : List (Except RadioError Device)} :
    ∀ i r, openings[i]? = some r → opening openings i = r := by
  intro i r hi
  simp [opening, List.getD_eq_getElem?_getD, hi]

theorem outcomes_zip (served : List (Nat × Change)) :
    ((served.map Prod.fst).zip (serially radio (served.map Prod.snd)).outcomes).map Prod.snd =
      (serially radio (served.map Prod.snd)).outcomes := by
  apply List.map_snd_zip
  simp [length_outcomes_serially]

/-- Connects and disconnects are linearizable in the order in which they ask for their turn. In
every run from the start some of them, `served`, have their outcomes, and the others are in line;
outcomes and link are those of serving them one after another, each opening coming to the same. So
two runs with the same requests and openings agree as soon as nobody is in line, however each of
them interleaves. -/
theorem link_linearizable (backend : Backend) (bench : Bench) (capacity epoch : Nat)
    (moves : List Move) :
    let g₀ := start backend bench capacity epoch
    let g := g₀.through moves
    let openings := history attempts g₀ moves
    (∃ served waiting : List (Nat × Change),
      let s := serially (opening openings) (served.map Prod.snd)
      history arrivals g₀ moves = served ++ waiting ∧
      g.turn.parties = waiting.map (fun w => .client w.1) ∧
      history endings g₀ moves = (served.map Prod.fst).zip s.outcomes ∧
      s.outcomes.length = served.length ∧
      g.link = s.link ∧
      g.report.link =
        { s.link with connected := s.link.connected || decide (backend = .simulated) } ∧
      g.link.config = lastSetConfig (accepted (served.map Prod.snd) s.outcomes) ∧
      g.link.config.Valid ∧
      (backend = .hardware .scripted →
        g.station.bench.script.opened = bench.script.opened ++ committed s.outcomes)) ∧
    ∀ (backend' : Backend) (bench' : Bench) (capacity' epoch' : Nat) (moves' : List Move),
      let g₀' := start backend' bench' capacity' epoch'
      (history arrivals g₀' moves').map Prod.snd = (history arrivals g₀ moves).map Prod.snd →
      history attempts g₀' moves' = openings →
      g.turn.parties = [] → (g₀'.through moves').turn.parties = [] →
      (history endings g₀' moves').map Prod.snd = (history endings g₀ moves).map Prod.snd ∧
      (g₀'.through moves').link = g.link := by
  intro g₀ g openings
  have hrun := line_through backend bench capacity epoch moves
    (show ∀ i r, openings[i]? = some r → opening openings i = r from opening_of_getElem?)
  obtain ⟨served, waiting, harr, hend, hl⟩ := hrun
  have hlen := length_outcomes_serially (opening openings) (served.map Prod.snd)
  rw [List.length_map] at hlen
  have hbackend : g.station.backend = backend := backend_through g₀ moves
  refine ⟨⟨served, waiting, harr, hl.parties, hend, hlen, hl.link, ?_, ?_, ?_, ?_⟩, ?_⟩
  · show ({ g.link with connected := g.link.connected || g.station.simulated } : Link) = _
    rw [hl.link, Station.simulated, hbackend]
  · rw [hl.link]; exact config_serially _ _
  · rw [hl.link]; exact valid_serially _ _
  · intro hb; exact hl.booked (hbackend.trans hb)
  · intro backend' bench' capacity' epoch' moves' g₀' hsame hopenings hidle hidle'
    have hsees : ∀ i r, (history attempts g₀' moves')[i]? = some r → opening openings i = r := by
      rw [hopenings]
      exact opening_of_getElem?
    obtain ⟨served', waiting', harr', hend', hl'⟩ :=
      line_through backend' bench' capacity' epoch' moves' hsees
    obtain rfl : waiting = [] := by simpa using hl.parties.symm.trans hidle
    obtain rfl : waiting' = [] := by simpa using hl'.parties.symm.trans hidle'
    have hserved : served'.map Prod.snd = served.map Prod.snd := by
      rw [harr, harr', List.append_nil, List.append_nil] at hsame
      exact hsame
    refine ⟨?_, hl'.link.trans (hserved ▸ hl.link.symm)⟩
    rw [hend, hend', outcomes_zip, outcomes_zip, hserved]

end RadioGateway.Gateway
