import RadioGateway.Http.Server
import RadioGateway.Proofs.Drift

/-!
# Drivers are given up before the next one is opened

Every driver that was opened is given up once, and before another one is opened. So the clients are
told of a link exactly when a driver is attached, whenever nobody is changing that.
-/

namespace RadioGateway.Station

open RadioGateway.Radio

-- ---------------------------------------------------------------------------
-- What puts the scripted radio to sleep
-- ---------------------------------------------------------------------------

namespace Driver

variable (h : Hardware) (d : Driver) (b : Bench)

theorem sleeps_transmit (payload : List UInt8) :
    (d.transmit h payload b).state.script.sleeps = b.script.sleeps := by
  unfold transmit
  cases h with
  | scripted =>
    simp only [ScriptedRadio.transmit]
    split <;> rfl
  | board =>
    have hs := Bench.script_onBoard (Chip.beginTransmit d.config payload) b
    simp only
    split <;> rename_i he <;> rw [he] at hs
    · exact congrArg ScriptedRadio.sleeps hs
    · exact congrArg ScriptedRadio.sleeps ((d.steady_checkTransmit _ _).script.trans hs)
  | unavailable e => rfl

theorem sleeps_receive (timeout : Nat) :
    (d.receive h timeout b).state.1.script.sleeps = b.script.sleeps := by
  unfold receive
  cases h with
  | scripted =>
    simp only [ScriptedRadio.takeInbound]
    cases b.script.inbound with
    | nil => rfl
    | cons x rest => cases x <;> rfl
  | board => exact congrArg ScriptedRadio.sleeps (lookForFrame_keeps d b _).1.script
  | unavailable e => rfl

end Driver

variable (s : Station)

theorem sleeps_beginSend (payload : List UInt8) :
    (s.beginSend payload).state.bench.script.sleeps = s.bench.script.sleeps := by
  unfold beginSend
  split
  · rfl
  · rfl
  · rename_i h d _ _
    exact d.sleeps_transmit h s.bench payload

theorem sleeps_resumeSend (length looks : Nat) :
    (s.resumeSend length looks).state.bench.script.sleeps = s.bench.script.sleeps := by
  unfold resumeSend
  split
  · rfl
  · rename_i d _
    exact congrArg ScriptedRadio.sleeps (d.steady_checkTransmit s.bench looks).script

theorem sleeps_beginListen {ms : Nat} {e : Effect Station (Progress Listening Heard)}
    (he : s.beginListen ms = some e) : e.state.bench.script.sleeps = s.bench.script.sleeps := by
  unfold beginListen at he
  split at he
  · rename_i h d _ _
    obtain rfl := Option.some.inj he
    exact d.sleeps_receive h s.bench ms
  · cases he

theorem sleeps_resumeListen {l : Listening} {e : Effect Station (Progress Listening Heard)}
    (he : s.resumeListen l = some e) : e.state.bench.script.sleeps = s.bench.script.sleeps := by
  obtain ⟨d, -, rfl⟩ := Option.map_eq_some_iff.mp he
  exact congrArg ScriptedRadio.sleeps (d.resumeReceive_keeps s.bench l).1.script

theorem sleeps_beginAttach (c : Config) :
    (s.beginAttach c).state.bench.script.sleeps = s.release.state.bench.script.sleeps :=
  keeps_beginAttach (fun r c => (openWith_keeps r c).2.2) s c

theorem sleeps_finishAttach (o : Opening) :
    (s.finishAttach o).state.bench.script.sleeps = s.bench.script.sleeps :=
  keeps_finishAttach (fun r c => (openWith_keeps r c).2.2) s o

theorem sleeps_release (hb : s.backend = .hardware .scripted) :
    s.release.state.bench.script.sleeps = s.bench.script.sleeps + s.attached.toNat := by
  unfold release attached
  rw [hb]
  cases s.driver with
  | none => rfl
  | some d => rfl

end RadioGateway.Station

namespace RadioGateway.Gateway

open RadioGateway.Radio (Config RadioError)
open RadioGateway.Station (Bench Device Hardware SameDriver)

-- ---------------------------------------------------------------------------
-- What becomes of drivers
-- ---------------------------------------------------------------------------

/-- A driver is opened for a configuration, or the one that is attached is given up. -/
inductive Passage where
  | opened (c : Config)
  | released

def Passage.config? : Passage → Option Config
  | .opened c => some c
  | .released => none

def openings (past : List Passage) : List Config := past.filterMap Passage.config?

def releases (past : List Passage) : Nat := (past.filter fun p => p.config?.isNone).length

/-- Drivers come one at a time: one is opened only if none is left, and given up only if there is
one. The second argument is what the driver that is left was opened for. -/
inductive Custody : List Passage → Option Config → Prop
  | start : Custody [] none
  | opened {past : List Passage} (h : Custody past none) (c : Config) :
      Custody (past ++ [.opened c]) (some c)
  | released {past : List Passage} {c : Config} (h : Custody past (some c)) :
      Custody (past ++ [.released]) none

/-- All drivers but the one that is left have been given up. -/
theorem Custody.balance {past : List Passage} {left : Option Config} (h : Custody past left) :
    (openings past).length = releases past + left.isSome.toNat := by
  induction h with
  | start => rfl
  | opened h c ih =>
    simp only [openings, releases, List.filterMap_append, List.filter_append,
      List.length_append] at ih ⊢
    rw [ih]
    rfl
  | released h ih =>
    simp only [openings, releases, List.filterMap_append, List.filter_append,
      List.length_append] at ih ⊢
    rw [ih]
    rfl

def yielded (s : Station) : List Passage := if s.attached then [.released] else []

def Passage.ofAttempt (c : Config) : Except RadioError Device → Option Passage
  | .ok _ => some (.opened c)
  | .error _ => none

/-- What a client does to the drivers. A connect gives up the driver that is attached before its own
is opened. -/
def Stage.passages (s : Station) : Stage → List Passage
  | .waitingRadio (.attach c) =>
    yielded s ++ (Stage.attempt s (.waitingRadio (.attach c))).filterMap (Passage.ofAttempt c)
  | .opening c o => (Stage.attempt s (.opening c o)).filterMap (Passage.ofAttempt c)
  | .waitingRadio .detach => yielded s
  | _ => []

theorem passages_of_not_works {s : Station} {k : Stage} (hk : k.works = false) :
    k.passages s = [] := by
  cases k with
  | waitingRadio e => cases e <;> first | rfl | cases hk
  | opening | transmitting => cases hk
  | arrived | waitingTurn | finished => rfl

def passages (g : Gateway) : Move → List Passage
  | .resume (.client id) =>
    if g.goes (.client id) then (g.stage? id).toList.flatMap (Stage.passages g.station) else []
  | _ => []

-- ---------------------------------------------------------------------------
-- Steps
-- ---------------------------------------------------------------------------

/-- A step of the station in which drivers come and go. -/
structure Handover (h : Hardware) (s s' : Station) (now : List Passage) : Prop where
  custody : ∀ past, Custody past s.tuned → Custody (past ++ now) s'.tuned
  opened : h = .scripted →
    s'.bench.script.opened = s.bench.script.opened ++ openings now
  sleeps : h = .scripted → s'.bench.script.sleeps = s.bench.script.sleeps + releases now

section Handover

variable {h : Hardware} {s s' : Station} {c : Config}

theorem handover_of_sameDriver (hs : SameDriver s s')
    (hsleeps : s'.bench.script.sleeps = s.bench.script.sleeps) : Handover h s s' [] := by
  refine ⟨fun past hp => ?_, fun _ => ?_, fun _ => hsleeps⟩
  · rw [List.append_nil, hs.tuned]
    exact hp
  · exact hs.opened.trans (List.append_nil _).symm

theorem handover_release (hb : s.backend = .hardware h) :
    Handover h s s.release.state (yielded s) := by
  refine ⟨fun past hp => ?_, fun _ => ?_, fun hh => ?_⟩
  · rw [s.tuned_release hb]
    unfold yielded
    rw [s.attached_eq_isSome_tuned]
    cases ht : s.tuned with
    | none =>
      rw [ht] at hp
      simpa using hp
    | some c =>
      rw [ht] at hp
      exact .released hp
  · have hnone : openings (yielded s) = [] := by
      unfold yielded
      split <;> rfl
    rw [hnone, List.append_nil]
    exact s.release_keeps.2.1
  · rw [s.sleeps_release (hh ▸ hb)]
    unfold yielded
    cases s.attached <;> rfl

theorem Handover.trans {s'' : Station} {now more : List Passage} (h₁ : Handover h s s' now)
    (h₂ : Handover h s' s'' more) : Handover h s s'' (now ++ more) := by
  refine ⟨fun past hp => ?_, fun hh => ?_, fun hh => ?_⟩
  · rw [← List.append_assoc]
    exact h₂.custody _ (h₁.custody past hp)
  · rw [h₂.opened hh, h₁.opened hh, List.append_assoc, openings, openings, openings,
      List.filterMap_append]
  · rw [h₂.sleeps hh, h₁.sleeps hh, Nat.add_assoc]
    simp only [releases, List.filter_append, List.length_append]

/-- An opening that is over, when no driver was attached. -/
theorem handover_of_opens {r : Except RadioError Device} (hn : s.tuned = none)
    (ho : Station.Opens h c s s' r) (hsleeps : s'.bench.script.sleeps = s.bench.script.sleeps) :
    Handover h s s' (Passage.ofAttempt c r).toList := by
  cases r with
  | ok device =>
    obtain ⟨-, ht, hopened⟩ := ho
    refine ⟨fun past hp => ?_, fun hh => ?_, fun _ => hsleeps⟩
    · rw [ht]
      exact .opened (hn ▸ hp) c
    · rw [hopened, hh]
      rfl
  | error e =>
    obtain ⟨-, ht, hopened⟩ := ho
    refine ⟨fun past hp => ?_, fun hh => ?_, fun _ => hsleeps⟩
    · rw [ht, ← hn]
      simpa [Passage.ofAttempt] using hp
    · rw [hopened]
      exact (List.append_nil _).symm

theorem handover_beginAttach (hb : s.backend = .hardware h) :
    Handover h s (s.beginAttach c).state (Stage.passages s (.waitingRadio (.attach c))) := by
  obtain ⟨hbackend, hopened, -⟩ := s.release_keeps
  have hn := s.tuned_release hb
  have hs := s.sleeps_beginAttach c
  have ho := Station.opens_beginAttach (c := c) hb
  refine (handover_release hb).trans ?_
  cases hr : (s.beginAttach c).result with
  | finished r =>
    rw [hr] at ho
    have hattempt : Stage.attempt s (.waitingRadio (.attach c)) = [r] := by simp [Stage.attempt, hr]
    have ho' : Station.Opens h c s.release.state (s.beginAttach c).state r := by
      unfold Station.Opens at ho ⊢
      rwa [hbackend, hopened]
    rw [hattempt]
    cases r <;> exact handover_of_opens hn ho' hs
  | paused ms o =>
    rw [hr] at ho
    obtain ⟨-, -, ht, hopened'⟩ := ho
    have hattempt : Stage.attempt s (.waitingRadio (.attach c)) = [] := by simp [Stage.attempt, hr]
    rw [hattempt]
    refine ⟨fun past hp => ?_, fun _ => ?_, fun _ => hs⟩
    · rw [ht, ← hn]
      simpa using hp
    · exact (hopened'.trans hopened.symm).trans (List.append_nil _).symm

theorem handover_finishAttach (hn : s.tuned = none) :
    Handover h s (s.finishAttach (h.opening c)).state
      (Stage.passages s (.opening c (h.opening c))) := by
  have ho := Station.opens_finishAttach (h := h) (c := c) hn
  have hs := s.sleeps_finishAttach (h.opening c)
  have hnow : Stage.passages s (.opening c (h.opening c)) =
      [(s.finishAttach (h.opening c)).result].filterMap (Passage.ofAttempt c) := rfl
  rw [hnow]
  generalize (s.finishAttach (h.opening c)).result = r at ho
  cases r <;> exact handover_of_opens hn ho hs

end Handover

variable {h : Hardware} {g g' : Gateway} {id : Nat}

/-- What a receive loop does to the station: it listens, or it leaves it alone. -/
inductive Heeds (s : Station) : Station → Prop
  | idle : Heeds s s
  | begins {ms : Nat}
      {e : Station.Effect Station (Station.Progress Station.Listening Station.Heard)}
      (he : s.beginListen ms = some e) : Heeds s e.state
  | proceeds {l : Station.Listening}
      {e : Station.Effect Station (Station.Progress Station.Listening Station.Heard)}
      (he : s.resumeListen l = some e) : Heeds s e.state

theorem station_progressListen (g : Gateway) (id : Nat) (t : Timing) (deadline : Nat)
    (e : Station.Effect Station (Station.Progress Station.Listening Station.Heard)) :
    (g.progressListen id t deadline e).station = e.state := by
  unfold progressListen heard
  simp only
  split
  · split <;> simp
  · simp

theorem heeds_resumeListener (g : Gateway) (id : Nat) :
    Heeds g.station (g.resumeListener id).station := by
  have hidle {g' : Gateway} (hs : g'.station = g.station) : Heeds g.station g'.station := by
    rw [hs]
    exact .idle
  unfold resumeListener
  split
  · exact .idle
  · rename_i t stage _
    cases stage with
    | proceeding deadline => cases deadline <;> exact hidle (by simp)
    | waitingRadio deadline slice =>
      simp only [listenSlice]
      split
      · rename_i e he
        rw [station_progressListen]
        exact .begins he
      · exact hidle (by simp)
    | listening deadline l =>
      simp only
      split
      · rename_i e he
        rw [station_progressListen]
        exact .proceeds he
      · exact hidle (by simp)
    | starting | simulating | idle | backingOff | crashed | restarting => exact hidle (by simp)

-- ---------------------------------------------------------------------------
-- Moves
-- ---------------------------------------------------------------------------

theorem handover_resumeClient (ho : InOrder g) (hl : InLine g)
    (hb : g.station.backend = .hardware h) (hp : g.goes (.client id) = true) {k : Stage}
    (hid : g.stage? id = some k) :
    Handover h g.station (g.after (.resume (.client id))).station (k.passages g.station) := by
  have hid' : (g.depart (.client id)).stage? id = some k := by simpa using hid
  have hworks := works_resumeClient hid'
  rw [(depart_keeps g (.client id)).1, ← after_resumeClient hp] at hworks
  generalize (g.after (.resume (.client id))).station = s at hworks
  cases hworks with
  | idle hk =>
    rw [passages_of_not_works hk]
    exact handover_of_sameDriver (.refl _) rfl
  | sends payload =>
    exact handover_of_sameDriver (g.station.sameDriver_beginSend payload)
      (g.station.sleeps_beginSend payload)
  | transmits length looks =>
    exact handover_of_sameDriver (g.station.sameDriver_resumeSend length looks)
      (g.station.sleeps_resumeSend length looks)
  | attach c => exact handover_beginAttach hb
  | finish c o =>
    obtain ⟨hn, hw, hb', rfl⟩ := hl.front_opening ho hp hid
    obtain rfl : h = hw := Station.Backend.hardware.inj (hb.symm.trans hb')
    exact handover_finishAttach hn
  | detach => exact handover_release hb

theorem handover_after (ho : InOrder g) (hl : InLine g) (hb : g.station.backend = .hardware h)
    (m : Move) : Handover h g.station (g.after m).station (passages g m) := by
  have hkeep {g' : Gateway} (hs : g'.station = g.station) : Handover h g.station g'.station [] :=
    hs ▸ handover_of_sameDriver (.refl _) rfl
  cases m with
  | resume p =>
    cases hp : g.goes p with
    | false =>
      have hstay : (g.after (.resume p)).station = g.station := by rw [after_resume_of_not_goes hp]
      cases p with
      | client id =>
        simp only [passages, hp]
        exact hkeep hstay
      | listener id => exact hkeep hstay
    | true =>
      cases p with
      | client id =>
        cases hid : g.stage? id with
        | none =>
          simp only [passages, hp, hid]
          refine hkeep ?_
          rw [after_resumeClient hp]
          simp [resumeClient, hid]
        | some k =>
          have hnow : passages g (.resume (.client id)) = k.passages g.station := by
            simp [passages, hp, hid]
          rw [hnow]
          exact handover_resumeClient ho hl hb hp hid
      | listener id =>
        have hheeds := heeds_resumeListener (g.depart (.listener id)) id
        have hafter : g.after (.resume (.listener id)) =
            (g.depart (.listener id)).resumeListener id := after_resume hp
        rw [(depart_keeps g (.listener id)).1, ← hafter] at hheeds
        generalize (g.after (.resume (.listener id))).station = s at hheeds
        cases hheeds with
        | idle => exact hkeep rfl
        | begins he =>
          exact handover_of_sameDriver (g.station.sameDriver_beginListen he)
            (g.station.sleeps_beginListen he)
        | proceeds he =>
          exact handover_of_sameDriver (g.station.sameDriver_resumeListen he)
            (g.station.sleeps_resumeListen he)
  | stimulate x =>
    refine handover_of_sameDriver (sameDriver_stimulate g.station x) ?_
    cases x <;> rfl
  | forget id =>
    refine hkeep ?_
    simp only [after]
    split <;> rfl
  | arrive | elapse | poll | enlist | dismiss | relog => exact hkeep (by simp [after, poll])

theorem InLine.through (hl : InLine g) (ho : InOrder g) (moves : List Move) :
    InLine (g.through moves) := by
  induction moves generalizing g with
  | nil => exact hl
  | cons m moves ih => exact ih (hl.use ho (.move m)) (ho.after m)

theorem inLine_start (backend : Station.Backend) (bench : Bench) (capacity epoch : Nat) :
    InLine (start backend bench capacity epoch) :=
  ⟨fun _ => .error .notConnected, _, _, _, _, line_start _ _ _ _⟩

/-- What a run from the start has done to the drivers. -/
theorem handover_through (h : Hardware) (bench : Bench) (capacity epoch : Nat) (moves : List Move) :
    let g₀ := start (.hardware h) bench capacity epoch
    Handover h g₀.station (g₀.through moves).station (history passages g₀ moves) := by
  intro g₀
  induction moves using List.reverseRecOn with
  | nil => exact handover_of_sameDriver (.refl _) rfl
  | append_singleton moves m ih =>
    have ho := (inOrder_start (.hardware h) bench capacity epoch).through moves
    have hl := (inLine_start (.hardware h) bench capacity epoch).through
      (inOrder_start (.hardware h) bench capacity epoch) moves
    rw [through_snoc, history_snoc]
    exact ih.trans (handover_after ho hl (backend_through g₀ moves) m)

-- ---------------------------------------------------------------------------
-- Asking for the turn
-- ---------------------------------------------------------------------------

/-- Neither the radio nor the clients nor the receive loops notice anything. -/
structure Untouched (g g' : Gateway) : Prop where
  station : g'.station = g.station
  link : g'.link = g.link
  inbox : g'.inbox = g.inbox
  listener? : g'.listener? = g.listener?

theorem Untouched.trans {g'' : Gateway} (h : Untouched g g') (h' : Untouched g' g'') :
    Untouched g g'' :=
  ⟨h'.station.trans h.station, h'.link.trans h.link, h'.inbox.trans h.inbox,
    h'.listener?.trans h.listener?⟩

theorem goes_seekTurn (ht : g.turn.holder = none) (id : Nat) (r : Request) :
    (g.seekTurn id r).goes (.client id) = true := by
  simp [seekTurn_eq, Lock.acquire, ht, goOn, goes]

theorem goes_seekRadio (hr : g.radio.holder = none) (id : Nat) (e : Errand) :
    (g.seekRadio id e).goes (.client id) = true := by
  simp [seekRadio_eq, Lock.acquire, hr, goOn, goes]

theorem after_arrived {x : Change} (hp : g.goes (.client id) = true)
    (hid : g.stage? id = some (.arrived x.request)) :
    g.after (.resume (.client id)) = (g.depart (.client id)).seekTurn id x.request := by
  have hid' : (g.depart (.client id)).stage? id = some (.arrived x.request) := by simpa using hid
  rw [after_resumeClient hp]
  cases x <;> simp only [resumeClient, hid', Change.request]

theorem change_asks {x : Change} (hp : g.goes (.client id) = true)
    (hid : g.stage? id = some (.arrived x.request)) :
    (g.after (.resume (.client id))).stage? id = some (.waitingTurn x.request) ∧
      Untouched g (g.after (.resume (.client id))) := by
  rw [after_arrived hp hid]
  exact ⟨by simp [hid], by simp, by simp, by simp, by simp⟩

/-- With nobody else at it, whoever arrives has the turn after one step. -/
theorem turn_at_once (ho : InOrder g) (ht : g.turn.holder = none) (origin : Origin)
    (manner : Manner) (x : Change) :
    let next := g.through [.arrive origin manner x.request, .resume (.client g.nextId)]
    next.goes (.client g.nextId) = true ∧ next.stage? g.nextId = some (.waitingTurn x.request) ∧
      Untouched g next ∧ next.radio = g.radio := by
  intro next
  let arrived := g.after (.arrive origin manner x.request)
  have hid : arrived.stage? g.nextId = some (.arrived x.request) := by
    show (g.arrive origin manner x.request).stage? g.nextId = _
    rw [stage?_arrive g origin manner x.request ho.stage?_next, Function.update_self]
  have hp : arrived.goes (.client g.nextId) = true := goes_wake _ _
  have hsame : Untouched g arrived :=
    ⟨by simp [arrived, after], by simp [arrived, after], by simp [arrived, after],
      by simp [arrived, after]⟩
  obtain ⟨hid', hsame'⟩ := change_asks hp hid
  have hnext : next = (arrived.depart (.client g.nextId)).seekTurn g.nextId x.request :=
    after_arrived hp hid
  refine ⟨?_, hid', hsame.trans hsame', ?_⟩
  · rw [hnext]
    exact goes_seekTurn (by simpa [arrived, after] using ht) _ _
  · rw [hnext]
    simp [arrived, after]

-- ---------------------------------------------------------------------------
-- Disconnects
-- ---------------------------------------------------------------------------

theorem disconnect_proceeds (hp : g.goes (.client id) = true)
    (hid : g.stage? id = some (.waitingTurn .disconnect)) :
    (g.after (.resume (.client id))).stage? id = some (.waitingRadio .detach) ∧
      Untouched g (g.after (.resume (.client id))) := by
  have hid' : (g.depart (.client id)).stage? id = some (.waitingTurn .disconnect) := by
    simpa using hid
  have hstep : g.after (.resume (.client id)) = (g.depart (.client id)).seekRadio id .detach := by
    rw [after_resumeClient hp]
    simp [resumeClient, hid', takeTurn]
  rw [hstep]
  exact ⟨by simp [hid], by simp, by simp, by simp, by simp⟩

/-- A driver that cannot be put to sleep is given up as well. -/
theorem disconnect_ends (hb : g.station.backend = .hardware h) (hp : g.goes (.client id) = true)
    (hid : g.stage? id = some (.waitingRadio .detach)) :
    let next := g.after (.resume (.client id))
    next.stage? id = some (.finished (.ok .disconnected)) ∧ next.station = g.station.release.state ∧
      next.station.attached = false ∧ next.link = { g.link with connected := false } ∧
      next.inbox = g.inbox ∧ next.listener? = g.listener? := by
  intro next
  have hid' : (g.depart (.client id)).stage? id = some (.waitingRadio .detach) := by simpa using hid
  have hstep : next = (g.depart (.client id)).useRadio id .detach := by
    show g.after _ = _
    rw [after_resumeClient hp]
    simp [resumeClient, hid']
  have hstation : next.station = g.station.release.state := by
    rw [hstep]
    simp [useRadio, Station.detach]
  refine ⟨?_, hstation, ?_, ?_, ?_, ?_⟩
  · rw [hstep]
    simp [useRadio, hid]
  · rw [hstation, Station.attached_eq_isSome_tuned, Station.tuned_release _ hb]
    rfl
  · rw [hstep]
    simp [useRadio]
  · rw [hstep]
    simp [useRadio]
  · rw [hstep]
    simp [useRadio]

theorem release_of_not_attached {s : Station} (hn : s.attached = false) : s.release.state = s := by
  unfold Station.attached at hn
  unfold Station.release
  cases hd : s.driver with
  | some d => simp [hd] at hn
  | none => split <;> simp_all

/-- A disconnect that finds nothing to disconnect changes nothing. -/
theorem disconnect_again (hl : InLine g) (ho : InOrder g) (hb : g.station.backend = .hardware h)
    (hp : g.goes (.client id) = true) (hid : g.stage? id = some (.waitingRadio .detach))
    (hn : g.station.attached = false) : Untouched g (g.after (.resume (.client id))) := by
  obtain ⟨-, hstation, -, hlink, hinbox, hlisteners⟩ := disconnect_ends hb hp hid
  refine ⟨hstation.trans (release_of_not_attached hn), hlink.trans ?_, hinbox, hlisteners⟩
  obtain ⟨radio, books, n, s, x, rest, -, hf⟩ := hl.front ho hp hid (by rintro ⟨⟩)
  have hsettled : Settled g := by
    cases hf with
    | detach hn hd hid' => exact hd
    | turn _ _ hid' | attach _ _ _ _ hid' | opening _ _ _ _ _ hid' | confirm _ _ _ _ _ hid' =>
      cases hid.symm.trans hid'
  have htuned := hsettled h hb
  have hnone : g.station.tuned = none := by
    rw [Station.attached_eq_isSome_tuned] at hn
    simpa using hn
  cases hc : g.link.connected with
  | true => simp [hc, hnone] at htuned
  | false => exact congrArg (Link.mk g.link.config) hc.symm

/-- With nobody else at it, a disconnect is over after three steps. -/
theorem disconnect_at_once (ho : InOrder g) (hb : g.station.backend = .hardware h)
    (ht : g.turn.holder = none) (hr : g.radio.holder = none) (origin : Origin) (manner : Manner) :
    (g.through [.arrive origin manner .disconnect, .resume (.client g.nextId),
      .resume (.client g.nextId), .resume (.client g.nextId)]).outcome? g.nextId =
        some (.ok .disconnected) := by
  obtain ⟨hp, hid, hsame, hradio⟩ := turn_at_once ho ht origin manner .disconnect
  generalize hg₂ : g.through [.arrive origin manner Change.disconnect.request,
    .resume (.client g.nextId)] = g₂ at hp hid hsame hradio
  have hb₂ : g₂.station.backend = .hardware h := by rw [hsame.station, hb]
  obtain ⟨hid', -⟩ := disconnect_proceeds hp hid
  have hp' : (g₂.after (.resume (.client g.nextId))).goes (.client g.nextId) = true := by
    rw [after_resumeClient hp]
    simp only [resumeClient, depart_keeps, hid, takeTurn, Change.request]
    exact goes_seekRadio (by simpa [hradio] using hr) _ _
  have hends := (disconnect_ends ((backend_after g₂ _).trans hb₂) hp' hid').1
  refine (outcome?_eq_some _ _).mpr ?_
  rw [show g.through [.arrive origin manner .disconnect, .resume (.client g.nextId),
      .resume (.client g.nextId), .resume (.client g.nextId)] =
    ((g.through
      [.arrive origin manner Change.disconnect.request, .resume (.client g.nextId)]).after
      (.resume (.client g.nextId))).after (.resume (.client g.nextId)) from rfl, hg₂]
  exact hends

-- ---------------------------------------------------------------------------
-- What is told of the link
-- ---------------------------------------------------------------------------

/-- The answers to who asks for the statistics or for the state of the service say that a driver is
attached, or that none is. -/
def TellsOf (g : Gateway) (connected : Bool) : Prop :=
  g.report.link.connected = connected ∧
  ∀ (manner : Manner) (r : Http.Request),
    (r.call = .stats → (Http.serve g manner r).2 =
      .answered ((Http.Response.ok (Http.statsBody
        { stats := g.inbox.stats, link := { config := g.link.config, connected } })).forMethod
          r.method)) ∧
    (r.call = .health → (Http.serve g manner r).2 =
      .answered ((Http.Response.ok (Http.healthBody true connected)).forMethod r.method))

theorem tellsOf_attached (hl : InLine g) (hb : g.station.backend = .hardware h)
    (hq : g.turn.parties = []) : TellsOf g g.station.attached := by
  have htuned := hl.settled hq h hb
  have hsim : g.station.simulated = false := by simp [Station.simulated, hb]
  have hconnected : g.report.link.connected = g.station.attached := by
    rw [connected_report hb, Station.attached_eq_isSome_tuned, htuned]
    cases g.link.connected <;> rfl
  have hreport : g.report = ⟨g.inbox.stats, ⟨g.link.config, g.station.attached⟩⟩ :=
    congrArg (fun b => (⟨g.inbox.stats, ⟨g.link.config, b⟩⟩ : Report)) hconnected
  refine ⟨hconnected, fun manner r => ⟨fun hcall => ?_, fun hcall => ?_⟩⟩
  · simp only [Http.serve, hcall, hreport]
  · simp only [Http.serve, hcall, hreport, hsim, Bool.not_false]

/-- What is told of the link and what becomes of the drivers agree. With any hardware, after every
run: when nobody has the turn, the clients are told that a link is there exactly if a driver is
attached. At every moment drivers have come one at a time, each one given up before the next was
opened, and the one that is left, if any, is attached. With the scripted radio, giving up is putting
to sleep. A disconnect always comes to an end, and then no driver is attached and no link is
claimed, even if the driver cannot be put to sleep; the configuration, the packets and the
statistics stay as they are, and a disconnect that finds no driver changes nothing at all. -/
theorem drivers_given_up_in_turn (h : Hardware) (bench : Bench) (capacity epoch : Nat)
    (moves : List Move) :
    let g₀ := start (.hardware h) bench capacity epoch
    let g := g₀.through moves
    let past := history passages g₀ moves
    (g.turn.parties = [] → TellsOf g g.station.attached) ∧
    Custody past g.station.tuned ∧
    (openings past).length = releases past + g.station.attached.toNat ∧
    (h = .scripted →
      g.station.bench.script.opened = bench.script.opened ++ openings past ∧
      g.station.bench.script.sleeps = bench.script.sleeps + releases past ∧
      g.station.bench.script.sleeps + g.station.attached.toNat + bench.script.opened.length =
        bench.script.sleeps + g.station.bench.script.opened.length) ∧
    (∀ id, g.goes (.client id) = true →
      let next := g.after (.resume (.client id))
      (g.stage? id = some (.arrived .disconnect) →
        next.stage? id = some (.waitingTurn .disconnect) ∧ Untouched g next) ∧
      (g.stage? id = some (.waitingTurn .disconnect) →
        next.stage? id = some (.waitingRadio .detach) ∧ Untouched g next) ∧
      (g.stage? id = some (.waitingRadio .detach) →
        next.outcome? id = some (.ok .disconnected) ∧ next.station.attached = false ∧
        next.link = { g.link with connected := false } ∧ next.inbox = g.inbox ∧
        (g.station.attached = false → Untouched g next))) ∧
    (g.turn.holder = none → g.radio.holder = none → ∀ origin manner,
      (g.through [.arrive origin manner .disconnect, .resume (.client g.nextId),
        .resume (.client g.nextId), .resume (.client g.nextId)]).outcome? g.nextId =
          some (.ok .disconnected)) := by
  intro g₀ g past
  have ho : InOrder g := (inOrder_start (.hardware h) bench capacity epoch).through moves
  have hl : InLine g := (inLine_start (.hardware h) bench capacity epoch).through
    (inOrder_start (.hardware h) bench capacity epoch) moves
  have hb : g.station.backend = .hardware h := backend_through g₀ moves
  have hpast : Handover h g₀.station g.station past := handover_through h bench capacity epoch moves
  have hcustody : Custody past g.station.tuned := hpast.custody [] .start
  have hbalance : (openings past).length = releases past + g.station.attached.toNat := by
    rw [Station.attached_eq_isSome_tuned]
    exact hcustody.balance
  refine ⟨tellsOf_attached hl hb, hcustody, hbalance, fun hh => ?_, fun id hp => ⟨?_, ?_, ?_⟩,
    fun ht hr origin manner => disconnect_at_once ho hb ht hr origin manner⟩
  · have hopened : g.station.bench.script.opened = bench.script.opened ++ openings past :=
      hpast.opened hh
    have hsleeps : g.station.bench.script.sleeps = bench.script.sleeps + releases past :=
      hpast.sleeps hh
    refine ⟨hopened, hsleeps, ?_⟩
    rw [hopened, hsleeps, List.length_append]
    omega
  · exact change_asks (x := .disconnect) hp
  · exact disconnect_proceeds hp
  · intro hid
    obtain ⟨hend, -, hdetached, hlink, hinbox, -⟩ := disconnect_ends hb hp hid
    exact ⟨(outcome?_eq_some _ _).mpr hend, hdetached, hlink, hinbox,
      disconnect_again hl ho hb hp hid⟩

end RadioGateway.Gateway
