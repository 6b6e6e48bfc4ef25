import RadioGateway.Proofs.Conservation
import RadioGateway.Proofs.Lifecycle
import RadioGateway.Proofs.Places

/-!
# Sends are served in the order in which they ask for the radio

With the scripted radio and in simulation a send is over as soon as it has been given the radio.
What has been transmitted, what has been counted and what the clients have been told agree at every
moment, however many sends wait and whatever else is done to the radio in between.
-/

namespace RadioGateway.Station

open RadioGateway.Radio

-- ---------------------------------------------------------------------------
-- Only a send has the scripted radio transmit
-- ---------------------------------------------------------------------------

def aired (s : Station) : List (List UInt8) := s.bench.script.transmitted

variable (s : Station)

theorem aired_release : s.release.state.aired = s.aired := by
  unfold release
  split
  · rename_i h d _ _
    cases h with
    | board => exact congrArg ScriptedRadio.transmitted (Bench.script_onBoard _ _)
    | scripted | unavailable e => rfl
  · rfl

theorem aired_beginAttach (c : Config) : (s.beginAttach c).state.aired = s.aired :=
  (keeps_beginAttach (fun r c => (openWith_keeps r c).2.1) s c).trans s.aired_release

theorem aired_finishAttach (o : Opening) : (s.finishAttach o).state.aired = s.aired :=
  keeps_finishAttach (fun r c => (openWith_keeps r c).2.1) s o

theorem aired_resumeSend (length looks : Nat) :
    (s.resumeSend length looks).state.aired = s.aired := by
  unfold resumeSend
  split
  · rfl
  · rename_i d _
    exact congrArg ScriptedRadio.transmitted (d.steady_checkTransmit s.bench looks).script

theorem aired_beginListen {ms : Nat} {e : Effect Station (Progress Listening Heard)}
    (he : s.beginListen ms = some e) : e.state.aired = s.aired := by
  unfold beginListen at he
  split at he
  · rename_i h d _ _
    obtain rfl := Option.some.inj he
    cases h with
    | scripted =>
      simp only [aired, progressListen, Driver.receive, ScriptedRadio.takeInbound]
      cases s.bench.script.inbound with
      | nil => rfl
      | cons x rest => cases x <;> rfl
    | board => exact congrArg ScriptedRadio.transmitted (d.lookForFrame_keeps s.bench _).1.script
    | unavailable e => rfl
  · cases he

theorem aired_resumeListen {l : Listening} {e : Effect Station (Progress Listening Heard)}
    (he : s.resumeListen l = some e) : e.state.aired = s.aired := by
  obtain ⟨d, -, rfl⟩ := Option.map_eq_some_iff.mp he
  exact congrArg ScriptedRadio.transmitted (d.resumeReceive_keeps s.bench l).1.script

-- ---------------------------------------------------------------------------
-- A send that is over at once
-- ---------------------------------------------------------------------------

/-- What is in the way of a send with the scripted radio. -/
def obstacle? (s : Station) : Option RadioError :=
  match s.driver, s.bench.script.nextSendError with
  | none, _ => some .notConnected
  | some _, some reason => some (.device reason)
  | some _, none => none

/-- What a send comes to that is over at once. -/
def verdict (s : Station) (payload : List UInt8) : Except RadioError Nat :=
  match s.backend, s.obstacle? with
  | .simulated, _ => .ok payload.length
  | .hardware _, some e => .error e
  | .hardware _, none => .ok payload.length

/-- What is on the air after a send that is over at once. -/
def onAir (s : Station) (payload : List UInt8) : List (List UInt8) :=
  match s.backend, s.obstacle? with
  | .hardware _, none => [payload]
  | _, _ => []

/-- A station on which a send is over at once. -/
def Prompt (s : Station) : Prop := s.backend = .simulated ∨ s.backend = .hardware .scripted

theorem Prompt.congr {s s' : Station} (h : s.Prompt) (hb : s'.backend = s.backend) : s'.Prompt := by
  rwa [Prompt, hb]

theorem beginSend_prompt {s : Station} (h : s.Prompt) (payload : List UInt8) :
    (s.beginSend payload).result = .finished (s.verdict payload) ∧
      (s.beginSend payload).state.driver = s.driver ∧
      (s.beginSend payload).state.backend = s.backend ∧
      (s.beginSend payload).state.aired = s.aired ++ s.onAir payload := by
  unfold beginSend verdict onAir obstacle? aired
  rcases h with hb | hb
  · simp [hb]
  · cases hd : s.driver with
    | none => simp [hb, hd]
    | some d =>
      cases he : s.bench.script.nextSendError with
      | none => simp [progressSend, Driver.transmit, ScriptedRadio.transmit, he, hd, hb, Except.map]
      | some reason =>
        simp [progressSend, Driver.transmit, ScriptedRadio.transmit, he, hd, hb, Except.map]

end RadioGateway.Station

namespace RadioGateway.Gateway

open Function (update)
open RadioGateway.Radio (RadioError)
open RadioGateway.Station (Backend Bench)

variable {g g' : Gateway} {id : Nat} {m : Move} {k : Stage} {payload : List UInt8}

-- ---------------------------------------------------------------------------
-- What is seen of the sends
-- ---------------------------------------------------------------------------

/-- The send that asks for the radio at a move. -/
def asks (g : Gateway) : Move → List (Nat × List UInt8)
  | .resume (.client id) =>
    if g.goes (.client id) then
      match g.stage? id with
      | some (.arrived (.send (.ok payload))) => [(id, payload)]
      | _ => []
    else []
  | _ => []

/-- What the sends that have asked for the radio come to at a move. -/
def returns (g : Gateway) (m : Move) : List (Nat × Outcome) :=
  g.pending.filterMap fun w => ((g.after m).outcome? w.1).map fun o => (w.1, o)

/-- What a client is told of a send that has been given the radio. -/
def reported (simulated : Bool) : Except RadioError Nat → Outcome
  | .ok length => .ok (.sent length simulated)
  | .error e => .error (.driver e)

/-- Only a send that is successful is counted. -/
def Inbox.counting (i : Inbox) : Except RadioError Nat → Inbox
  | .ok _ => { i with stats := i.stats.recordSent }
  | .error _ => i

/-- Of the payloads those that were sent. -/
def delivered (payloads : List (List UInt8)) (outcomes : List Outcome) : List (List UInt8) :=
  (payloads.zip outcomes).filterMap fun
    | (payload, .ok _) => some payload
    | (_, .error _) => none

-- ---------------------------------------------------------------------------
-- Steps of clients
-- ---------------------------------------------------------------------------

/-- Where a connect or a disconnect stands after it has asked for its turn. -/
def Stage.changes : Stage → Bool
  | .waitingTurn _ | .waitingRadio (.attach _) | .waitingRadio (.confirm _)
  | .waitingRadio .detach => true
  | .opening _ _ => true
  | .finished (.ok (.sent _ _)) => false
  | .finished _ => true
  | .arrived _ | .waitingRadio (.send _) | .transmitting _ _ => false

theorem changes_resumeClient (hid : g.stage? id = some k) (hk : k.sends = false)
    (hf : k.isFinished = false) :
    ∃ k', k'.changes = true ∧ (g.resumeClient id).stage? id = some k' := by
  have hopened (g : Gateway) (k : Stage) (hid : g.stage? id = some k) (c : Radio.Config)
      (r : Except RadioError Station.Device) :
      ∃ k', k'.changes = true ∧ (g.opened id c r).stage? id = some k' := by
    cases r with
    | ok device => exact ⟨_, rfl, by simp [opened, commit, hid]; rfl⟩
    | error e => exact ⟨_, rfl, by simp [opened, hid]; rfl⟩
  unfold resumeClient
  rw [hid]
  cases k with
  | arrived r =>
    cases r with
    | connect | disconnect => exact ⟨_, rfl, by simp [hid]; rfl⟩
    | send => cases hk
  | waitingTurn r =>
    simp only [takeTurn]
    split
    · split
      · exact ⟨_, rfl, by simp [hid]; rfl⟩
      · exact ⟨_, rfl, by simp [hid]; rfl⟩
    · exact ⟨_, rfl, by simp [hid]; rfl⟩
  | waitingRadio e =>
    cases e with
    | attach c =>
      simp only [useRadio]
      split
      · exact hopened _ _ (by simpa using hid) c _
      · exact ⟨_, rfl, by simp [hid]; rfl⟩
    | confirm e => exact ⟨_, rfl, by simp [useRadio, giveUp, hid]; rfl⟩
    | detach => exact ⟨_, rfl, by simp [useRadio, hid]; rfl⟩
    | send => cases hk
  | opening c o => exact hopened _ _ (by simpa using hid) c _
  | transmitting => cases hk
  | finished => cases hf

/-- Whoever can go on has a request that is not over. -/
theorem InOrder.stage?_of_goes (h : InOrder g) (hp : g.goes (.client id) = true) :
    ∃ k, g.stage? id = some k ∧ k.isFinished = false := by
  have hactive : (g.standing (.client id)).active = true :=
    ((h.orderly.mem _).mp (awake_of_goes hp)).1
  cases hid : g.stage? id with
  | none =>
    rw [standing, hid] at hactive
    cases hactive
  | some k =>
    rw [standing_client hid] at hactive
    cases k with
    | finished => cases hactive
    | _ => exact ⟨_, rfl, rfl⟩

theorem resumeClient_unencodable {e : Json.Error}
    (hid : g.stage? id = some (.arrived (.send (.error e)))) :
    g.resumeClient id = g.finish id (.error (.serialization e.message)) := by
  simp only [resumeClient, hid]

theorem resumeClient_encoded (hid : g.stage? id = some (.arrived (.send (.ok payload)))) :
    g.resumeClient id = g.seekRadio id (.send payload) := by
  simp only [resumeClient, hid]

/-- A send that has been given the radio gives it back, and is told what has become of the
payload. -/
theorem resumeClient_send (h : g.station.Prompt)
    (hid : g.stage? id = some (.waitingRadio (.send payload))) :
    (g.resumeClient id).station = (g.station.beginSend payload).state ∧
      (g.resumeClient id).link = g.link ∧
      (g.resumeClient id).radio = g.radio.release.1 ∧
      (g.resumeClient id).inbox = g.inbox.counting (g.station.verdict payload) ∧
      (g.resumeClient id).stage? id =
        some (.finished (reported g.station.simulated (g.station.verdict payload))) := by
  obtain ⟨hresult, -, hbackend, -⟩ := Station.beginSend_prompt h payload
  have hsim : (g.station.beginSend payload).state.simulated = g.station.simulated := by
    rw [Station.simulated, hbackend, Station.simulated]
  simp only [resumeClient, hid, useRadio, progressTransmit, hresult, transmitted]
  cases g.station.verdict payload with
  | ok length => simp [reported, Inbox.counting, hid, hsim]
  | error e => simp [reported, Inbox.counting, hid]

-- ---------------------------------------------------------------------------
-- Moves
-- ---------------------------------------------------------------------------

/-- All sends are over as soon as they are given the radio. -/
structure Prompt (g : Gateway) : Prop where
  station : g.station.Prompt
  stage : ∀ id length looks, g.stage? id ≠ some (.transmitting length looks)

theorem sending?_resume {p q : Party} (hne : q ≠ p) :
    (g.after (.resume p)).sending? q = g.sending? q := by
  cases hp : g.goes p with
  | false => rw [after_resume_of_not_goes hp]
  | true =>
    rw [after_resume hp]
    refine sending?_of_stage? ?_
    rintro other rfl
    cases p with
    | client id =>
      have hne' : other ≠ id := fun he => hne (he ▸ rfl)
      simp [resume, stage?_resumeClient _ hne']
    | listener id => simp [resume, stage?_resumeListener]

theorem payload?_of_changes (hk : k.changes = true) : k.payload? = none := by
  unfold Stage.payload?
  split
  · cases hk
  · rfl

theorem payload?_of_not_sends (hk : k.sends = false) : k.payload? = none := by
  unfold Stage.payload?
  split
  · cases hk
  · rfl

theorem sent_resumeListener (g : Gateway) (id : Nat) :
    (g.resumeListener id).inbox.stats.sent = g.inbox.stats.sent := by
  have hlisten (t : Timing) (deadline : Nat)
      (e : Station.Effect Station (Station.Progress Station.Listening Station.Heard)) :
      (g.progressListen id t deadline e).inbox.stats.sent = g.inbox.stats.sent := by
    unfold progressListen heard
    simp only
    split
    · split
      · simp
      · rename_i f _
        simpa [Inbox.takeIn] using sent_takeIn g.inbox _ (.frame f)
      · simp
      · simp
    · simp
  unfold resumeListener
  split
  · rfl
  · rename_i t stage _
    cases stage with
    | proceeding deadline => cases deadline <;> simp
    | simulating => simpa [Inbox.acceptSynthetic] using sent_publish g.inbox _
    | waitingRadio deadline slice =>
      simp only [listenSlice]
      split
      · exact hlisten t deadline _
      · simp
    | listening deadline l =>
      simp only
      split
      · exact hlisten t deadline _
      · simp
    | starting | idle | backingOff | crashed | restarting => simp

/-- All that a move can do to the sends: one asks for the radio, or the first of those who wait is
served. -/
inductive Dispatches (g : Gateway) (m : Move) : Prop
  | waits (hp : (g.after m).pending = g.pending ++ asks g m)
      (ha : (g.after m).station.aired = g.station.aired)
      (hs : (g.after m).inbox.stats.sent = g.inbox.stats.sent)
  | serves {id : Nat} {payload : List UInt8} (hq : asks g m = [])
      (hp : g.pending = (id, payload) :: (g.after m).pending)
      (hid : (g.after m).stage? id =
        some (.finished (reported g.station.simulated (g.station.verdict payload))))
      (ha : (g.after m).station.aired = g.station.aired ++ g.station.onAir payload)
      (hs : (g.after m).inbox.stats.sent =
        g.inbox.stats.sent + (if (g.station.verdict payload).isOk then 1 else 0))

theorem Dispatches.of_others {p : Party} (ho : InOrder g) (hp : g.goes p = true)
    (hf : g.sending? p = none) (hf' : (g.after (.resume p)).sending? p = none)
    (hq : asks g (.resume p) = [])
    (ha : ((g.depart p).resume p).station.aired = (g.depart p).station.aired)
    (hs : ((g.depart p).resume p).inbox.stats.sent = (g.depart p).inbox.stats.sent) :
    Dispatches g (.resume p) := by
  refine .waits ?_ ?_ ?_
  · rw [hq, List.append_nil]
    exact pending_of_others (ho.others_resume hp) (fun q hne => sending?_resume hne) hf hf'
  · rw [after_resume hp, ha, (depart_keeps g p).1]
  · rw [after_resume hp, hs, (depart_keeps g p).2.1]

theorem aired_resumeClient (hid : g.stage? id = some k) (hk : k.payload? = none) :
    (g.resumeClient id).station.aired = g.station.aired := by
  have hworks := works_resumeClient hid
  generalize (g.resumeClient id).station = s at hworks
  cases hworks with
  | idle => rfl
  | sends payload => cases hk
  | transmits length looks => exact g.station.aired_resumeSend length looks
  | attach c => exact g.station.aired_beginAttach c
  | finish c o => exact g.station.aired_finishAttach o
  | detach => exact g.station.aired_release

theorem aired_resumeListener (g : Gateway) (id : Nat) :
    (g.resumeListener id).station.aired = g.station.aired := by
  have hheeds := heeds_resumeListener g id
  generalize (g.resumeListener id).station = s at hheeds
  cases hheeds with
  | idle => rfl
  | begins he => exact g.station.aired_beginListen he
  | proceeds he => exact g.station.aired_resumeListen he

section Clients

variable (ho : InOrder g) (hp : g.goes (.client id) = true)

include ho hp

theorem dispatches_changes (hid : g.stage? id = some k) (hk : k.isFinished = false)
    (hs : k.sends = false) : Dispatches g (.resume (.client id)) := by
  have hid' : (g.depart (.client id)).stage? id = some k := by simpa using hid
  obtain ⟨k', hk', hstage⟩ := changes_resumeClient hid' hs hk
  rw [← resume, ← after_resume hp] at hstage
  have hasks : asks g (.resume (.client id)) = [] := by
    simp only [asks, hp, if_true, hid]
    split
    · rename_i he
      cases he
      cases hs
    · rfl
  refine .of_others ho hp ?_ ?_ hasks ?_ ?_
  · rw [sending?_client hid, payload?_of_not_sends hs]
    rfl
  · rw [sending?_client hstage, payload?_of_changes hk']
    rfl
  · exact aired_resumeClient hid' (payload?_of_not_sends hs)
  · exact congrArg (fun i => i.stats.sent) (apart_resumeClient hid' hs).1

theorem dispatches_unencodable {e : Json.Error}
    (hid : g.stage? id = some (.arrived (.send (.error e)))) :
    Dispatches g (.resume (.client id)) := by
  have hid' : (g.depart (.client id)).stage? id = some (.arrived (.send (.error e))) := by
    simpa using hid
  have hstep := resumeClient_unencodable hid'
  have hstage : (g.after (.resume (.client id))).stage? id =
      some (.finished (.error (.serialization e.message))) := by
    rw [after_resume hp, resume, hstep]
    simp [hid]
  refine .of_others ho hp (sending?_client hid) ?_ (by simp [asks, hp, hid]) ?_ ?_
  · rw [sending?_client hstage]
    rfl
  · exact aired_resumeClient hid' rfl
  · rw [resume, hstep]
    simp

/-- A send joins those who wait for the radio, behind all others. -/
theorem dispatches_encoded (hid : g.stage? id = some (.arrived (.send (.ok payload)))) :
    Dispatches g (.resume (.client id)) := by
  have hafter : g.after (.resume (.client id)) = (g.depart (.client id)).seekRadio id
      (.send payload) := by
    rw [after_resume hp, resume, resumeClient_encoded (by simpa using hid)]
  have hsound : g.radio.Sound := ho.orderly.radio.sound
  have hnot : Party.client id ∉ g.radio.parties := fun hm =>
    (ho.orderly.radio.mem _).mp hm (congrArg Standing.radio (standing_client hid))
  have hasks : asks g (.resume (.client id)) = [(id, payload)] := by simp [asks, hp, hid]
  refine .waits ?_ ?_ ?_
  · rw [hasks]
    refine pending_snoc ?_ (fun q hne => sending?_resume hne) hnot ?_
    · rw [hafter]
      simpa using Lock.parties_acquire (.client id) hsound
    · rw [hafter]
      simp [sending?, hid, Stage.payload?]
  · rw [hafter]
    simp
  · rw [hafter]
    simp

/-- The first of those who wait has the radio and sends. -/
theorem dispatches_send (h : Prompt g) (hid : g.stage? id = some (.waitingRadio (.send payload))) :
    Dispatches g (.resume (.client id)) := by
  have hprompt : (g.depart (.client id)).station.Prompt := by simpa using h.station
  have hstation : (g.depart (.client id)).station = g.station := (depart_keeps g _).1
  obtain ⟨hst, -, hradio, hbox, hstage⟩ := resumeClient_send hprompt (by simpa using hid)
  rw [← resume, ← after_resume hp, hstation] at hst hbox hstage
  rw [← resume, ← after_resume hp] at hradio
  have hheld : g.radio.holder = some (.client id) :=
    ho.holds_radio hp (by rw [standing_client hid]; simp [Stage.standing])
  refine .serves (by simp [asks, hp, hid]) ?_ hstage ?_ ?_
  · exact pending_cons hheld ho.orderly.radio.nodup (by simpa using hradio)
      (fun q hne => sending?_resume hne) (sending?_client hid)
  · rw [hst]
    exact (Station.beginSend_prompt h.station payload).2.2.2
  · rw [hbox]
    cases g.station.verdict payload with
    | ok length => simp [Inbox.counting, Stats.recordSent, Except.isOk, Except.toBool]
    | error e => simp [Inbox.counting, Except.isOk, Except.toBool]

theorem dispatches_resumeClient (h : Prompt g) : Dispatches g (.resume (.client id)) := by
  obtain ⟨k, hid, hk⟩ := ho.stage?_of_goes hp
  cases hsends : k.sends with
  | false => exact dispatches_changes ho hp hid hk hsends
  | true =>
    cases k with
    | arrived r =>
      cases r with
      | connect | disconnect => cases hsends
      | send encoded =>
        cases encoded with
        | error e => exact dispatches_unencodable ho hp hid
        | ok payload => exact dispatches_encoded ho hp hid
    | waitingRadio e =>
      cases e with
      | attach | confirm | detach => cases hsends
      | send payload => exact dispatches_send ho hp h hid
    | transmitting length looks => exact absurd hid (h.stage id length looks)
    | waitingTurn | opening | finished => cases hsends

end Clients

theorem others_dismiss (g : Gateway) (id : Nat) :
    (g.dismiss id).radio.others (.listener id) = g.radio.others (.listener id) := by
  unfold dismiss
  split
  · rfl
  · simp only [note_keeps, wakeHolder_keeps, Lock.others, Lock.parties_withdraw]
    rw [← List.erase_filter, List.erase_of_not_mem (by simp)]

theorem Prompt.dispatches (h : Prompt g) (ho : InOrder g) (m : Move) : Dispatches g m := by
  have hquiet (g' : Gateway) (hg : g.after m = g') (hq : asks g m = [])
      (hp : g'.pending = g.pending)
      (ha : g'.station.aired = g.station.aired) (hs : g'.inbox.stats.sent = g.inbox.stats.sent) :
      Dispatches g m :=
    .waits (by rw [hq, List.append_nil, hg, hp]) (by rw [hg, ha]) (by rw [hg, hs])
  cases m with
  | resume p =>
    cases hp : g.goes p with
    | false =>
      have hq : asks g (.resume p) = [] := by cases p <;> simp [asks, hp]
      exact hquiet g (after_resume_of_not_goes hp) hq rfl rfl rfl
    | true =>
      cases p with
      | client id => exact dispatches_resumeClient ho hp h
      | listener id =>
        exact .of_others ho hp rfl rfl rfl (aired_resumeListener _ id) (sent_resumeListener _ id)
  | arrive origin manner r =>
    have hsame (p : Party) : (g.arrive origin manner r).sending? p = g.sending? p := by
      cases p with
      | listener id => rfl
      | client id =>
        rw [sending?, sending?, stage?_arrive g origin manner r ho.stage?_next]
        by_cases hid : id = g.nextId
        · rw [hid, Function.update_self, ho.stage?_next]
          rfl
        · rw [Function.update_of_ne hid]
    refine hquiet (g.arrive origin manner r) rfl rfl ?_ (by simp [Station.aired]) (by simp)
    rw [pending, pending, (arrive_keeps g origin manner r).2.2.2.2.1]
    exact List.filterMap_congr fun p _ => hsame p
  | forget id =>
    simp only [after] at hquiet
    split at hquiet
    · rename_i hout
      obtain ⟨outcome, hdone⟩ := Option.isSome_iff_exists.mp hout
      have hid := (outcome?_eq_some g id).mp hdone
      refine hquiet (g.forget id) rfl rfl ?_ rfl rfl
      refine List.filterMap_congr fun p _ => ?_
      cases p with
      | listener other => rfl
      | client other =>
        rw [sending?, sending?, stage?_forget]
        by_cases he : other = id
        · rw [he, Function.update_self, hid]
          rfl
        · rw [Function.update_of_ne he]
    · exact hquiet g rfl rfl rfl rfl rfl
  | dismiss id =>
    refine hquiet (g.dismiss id) rfl rfl ?_ (by simp [Station.aired]) (by simp)
    exact pending_of_others (others_dismiss g id) (fun q _ => sending?_of_stage? (by simp)) rfl rfl
  | enlist t =>
    refine hquiet (g.enlist t) rfl rfl ?_ (by simp [Station.aired]) (by simp)
    rw [pending, pending, (enlist_keeps g t).2.2.2.2.1]
    exact List.filterMap_congr fun p _ => sending?_of_stage? (by simp)
  | stimulate x => exact hquiet (g.stimulate x) rfl rfl rfl (by cases x <;> rfl) rfl
  | elapse | poll | relog => exact hquiet _ rfl rfl rfl rfl rfl

/-- Where a request stands that has not gone on itself: where it stood, or it has just come in. -/
theorem InOrder.stage?_of_after (ho : InOrder g) (hid : (g.after m).stage? id = some k) :
    g.stage? id = some k ∨
    (id = g.nextId ∧ ∃ origin manner r, m = .arrive origin manner r ∧ k = .arrived r) ∨
      (m = .resume (.client id) ∧ g.goes (.client id) = true) := by
  cases m with
  | resume p =>
    cases hp : g.goes p with
    | false =>
      rw [after_resume_of_not_goes hp] at hid
      exact .inl hid
    | true =>
      by_cases he : p = .client id
      · subst he
        exact .inr (.inr ⟨rfl, hp⟩)
      · rw [after_resume hp] at hid
        cases p with
        | listener other => exact .inl (by simpa [resume, stage?_resumeListener] using hid)
        | client other =>
          have hne : id ≠ other := fun heq => he (heq ▸ rfl)
          exact .inl (by simpa [resume, stage?_resumeClient _ hne] using hid)
  | arrive origin manner r =>
    rw [Gateway.after, stage?_arrive g origin manner r ho.stage?_next] at hid
    by_cases he : id = g.nextId
    · rw [he, Function.update_self] at hid
      exact .inr (.inl ⟨he, origin, manner, r, rfl, (Option.some.inj hid).symm⟩)
    · rw [Function.update_of_ne he] at hid
      exact .inl hid
  | forget other =>
    simp only [Gateway.after] at hid
    split at hid
    · rw [stage?_forget] at hid
      by_cases he : id = other
      · rw [he, Function.update_self] at hid
        cases hid
      · rw [Function.update_of_ne he] at hid
        exact .inl hid
    · exact .inl hid
  | enlist | dismiss => exact .inl (by simpa [Gateway.after] using hid)
  | elapse | poll | stimulate | relog => exact .inl hid

/-- Where a request may stand after a step of its own, by where it stood. -/
inductive Proceeds (s : Station) : Stage → Stage → Prop
  | changes {k k' : Stage} (hk : k.sends = false) (hk' : k'.changes = true) : Proceeds s k k'
  | refuses (e : Json.Error) :
      Proceeds s (.arrived (.send (.error e))) (.finished (.error (.serialization e.message)))
  | asks (payload : List UInt8) :
      Proceeds s (.arrived (.send (.ok payload))) (.waitingRadio (.send payload))
  | ends (payload : List UInt8) : Proceeds s (.waitingRadio (.send payload))
      (.finished (reported s.simulated (s.verdict payload)))

theorem Prompt.proceeds (h : Prompt g) (ho : InOrder g) (hp : g.goes (.client id) = true) :
    ∃ k k', g.stage? id = some k ∧ (g.after (.resume (.client id))).stage? id = some k' ∧
      Proceeds g.station k k' := by
  obtain ⟨k, hid, hk⟩ := ho.stage?_of_goes hp
  have hid' : (g.depart (.client id)).stage? id = some k := by simpa using hid
  rw [after_resume hp, resume]
  cases hs : k.sends with
  | false =>
    obtain ⟨k', hchanges, hstage⟩ := changes_resumeClient hid' hs hk
    exact ⟨k, k', hid, hstage, .changes hs hchanges⟩
  | true =>
    cases k with
    | arrived r =>
      cases r with
      | connect | disconnect => cases hs
      | send encoded =>
        cases encoded with
        | error e =>
          rw [resumeClient_unencodable hid']
          exact ⟨_, _, hid, by simp [hid], .refuses e⟩
        | ok payload =>
          rw [resumeClient_encoded hid']
          exact ⟨_, _, hid, by simp [hid], .asks payload⟩
    | waitingRadio e =>
      cases e with
      | send payload =>
        have hstage := (resumeClient_send (by simpa using h.station) hid').2.2.2.2
        rw [(depart_keeps g (.client id)).1] at hstage
        exact ⟨_, _, hid, hstage, .ends payload⟩
      | attach | confirm | detach => cases hs
    | transmitting length looks => exact absurd hid (h.stage id length looks)
    | waitingTurn | opening | finished => cases hs

theorem Prompt.after (h : Prompt g) (ho : InOrder g) (m : Move) : Prompt (g.after m) := by
  refine ⟨h.station.congr (backend_after g m), fun id length looks hid => ?_⟩
  rcases ho.stage?_of_after hid with hbefore | ⟨_, _, _, _, _, hk⟩ | ⟨rfl, hp⟩
  · exact h.stage id length looks hbefore
  · cases hk
  · obtain ⟨k, k', -, hstage, hproceeds⟩ := h.proceeds ho hp
    cases hstage.symm.trans hid
    cases hproceeds with
    | changes hk hk' => cases hk'

-- ---------------------------------------------------------------------------
-- Runs
-- ---------------------------------------------------------------------------

theorem outcome?_of_mem_pending {w : Nat × List UInt8} (hw : w ∈ g.pending) :
    g.outcome? w.1 = none := by
  rw [outcome?, stage?_of_mem_pending hw]

/-- Nobody has an outcome who still waits after a move. -/
theorem returns_eq_nil (more : List (Nat × List UInt8))
    (hp : (g.after m).pending = g.pending ++ more) : returns g m = [] := by
  refine List.filterMap_eq_nil_iff.mpr fun w hw => ?_
  rw [outcome?_of_mem_pending (hp ▸ List.mem_append_left more hw)]
  rfl

theorem returns_eq_singleton {o : Outcome} (hp : g.pending = (id, payload) :: (g.after m).pending)
    (hid : (g.after m).stage? id = some (.finished o)) : returns g m = [(id, o)] := by
  have hout : (g.after m).outcome? id = some o := (outcome?_eq_some _ _).mpr hid
  have hrest : (g.after m).pending.filterMap
      (fun w => ((g.after m).outcome? w.1).map fun o => (w.1, o)) = [] :=
    List.filterMap_eq_nil_iff.mpr fun w hw => by rw [outcome?_of_mem_pending hw]; rfl
  rw [returns, hp, List.filterMap_cons, hrest, hout]
  rfl

/-- What a client may be told of a payload that it has sent. -/
inductive Told (simulated : Bool) (payload : List UInt8) : Outcome → Prop
  | sent : Told simulated payload (.ok (.sent payload.length simulated))
  | failed {e : RadioError} (h : simulated = false) : Told simulated payload (.error (.driver e))

theorem told_reported (s : Station) (payload : List UInt8) :
    Told s.simulated payload (reported s.simulated (s.verdict payload)) := by
  unfold Station.verdict
  split
  · exact .sent
  · rename_i hb _
    exact .failed (by simp [Station.simulated, hb])
  · exact .sent

theorem isOk_reported (simulated : Bool) (r : Except RadioError Nat) :
    (reported simulated r).isOk = r.isOk := by
  cases r <;> rfl

theorem onAir_eq_delivered {s : Station} (hb : s.simulated = false) (payload : List UInt8) :
    s.onAir payload = delivered [payload] [reported s.simulated (s.verdict payload)] := by
  unfold Station.onAir Station.verdict
  split
  · rename_i hs ho
    simp only [hs, ho]
    rfl
  · rename_i hn
    cases hs : s.backend with
    | simulated => simp [Station.simulated, hs] at hb
    | hardware h =>
      cases ho : s.obstacle? with
      | none => exact absurd ho (hn h hs)
      | some e => rfl

theorem delivered_snoc {payloads : List (List UInt8)} {outcomes : List Outcome}
    (h : outcomes.length = payloads.length) (payload : List UInt8) (o : Outcome) :
    delivered (payloads ++ [payload]) (outcomes ++ [o]) =
      delivered payloads outcomes ++ delivered [payload] [o] := by
  rw [delivered, List.zip_append h.symm, List.filterMap_append]
  rfl

/-- Of those who have asked the sends `served` are over, in that order and with these outcomes, and
the others wait. -/
structure Dispatched (bench : Bench) (asked : List (Nat × List UInt8))
    (returned : List (Nat × Outcome)) (g : Gateway) (served : List (Nat × List UInt8))
    (outcomes : List Outcome) : Prop where
  asked : asked = served ++ g.pending
  returned : returned = (served.map Prod.fst).zip outcomes
  length : outcomes.length = served.length
  aired : g.station.aired = bench.script.transmitted ++
    if g.station.simulated then [] else delivered (served.map Prod.snd) outcomes
  sent : g.inbox.stats.sent = (outcomes.filter Except.isOk).length
  told : ∀ x ∈ (served.map Prod.snd).zip outcomes, Told g.station.simulated x.1 x.2

theorem Dispatched.after {bench : Bench} {asked served : List (Nat × List UInt8)}
    {returned : List (Nat × Outcome)} {outcomes : List Outcome}
    (h : Dispatched bench asked returned g served outcomes) (hp : Prompt g) (ho : InOrder g)
    (m : Move) : ∃ served' outcomes',
      Dispatched bench (asked ++ asks g m) (returned ++ returns g m) (g.after m) served'
        outcomes' := by
  have hsim : (g.after m).station.simulated = g.station.simulated := by
    rw [Station.simulated, Station.simulated, backend_after]
  have hlength : outcomes.length = (served.map Prod.snd).length := by rw [List.length_map, h.length]
  cases hp.dispatches ho m with
  | waits hp ha hs =>
    refine ⟨served, outcomes, ?_, ?_, h.length, ?_, ?_, ?_⟩
    · rw [h.asked, hp, List.append_assoc]
    · rw [returns_eq_nil _ hp, List.append_nil, h.returned]
    · rw [hsim, ha, h.aired]
    · rw [hs, h.sent]
    · rw [hsim]
      exact h.told
  | @serves id payload hq hp hid ha hs =>
    -- the send at the front moves from those who wait to those who are served
    let o := reported g.station.simulated (g.station.verdict payload)
    refine ⟨served ++ [(id, payload)], outcomes ++ [o], ?_, ?_, ?_, ?_, ?_, ?_⟩
    · rw [h.asked, hp, hq, List.append_nil, List.append_assoc]
      rfl
    · rw [returns_eq_singleton hp hid, h.returned, List.map_append,
        List.zip_append (by rw [List.length_map, h.length])]
      rfl
    · rw [List.length_append, List.length_append, h.length]
      rfl
    · rw [hsim, ha, h.aired, List.map_append, List.append_assoc]
      congr 1
      cases hs : g.station.simulated with
      | true =>
        have hb : g.station.backend = .simulated := by simpa [Station.simulated] using hs
        simp [Station.onAir, hb]
      | false =>
        have hair := onAir_eq_delivered hs payload
        have hsnoc := delivered_snoc hlength payload o
        simp only [o, hs] at hair hsnoc ⊢
        exact (congrArg (delivered (served.map Prod.snd) outcomes ++ ·) hair).trans hsnoc.symm
    · rw [hs, h.sent, List.filter_append, List.length_append]
      congr 1
      simp only [o, List.filter_cons, List.filter_nil, isOk_reported]
      split <;> rfl
    · rw [List.map_append, List.zip_append hlength.symm, hsim]
      intro x hx
      rcases List.mem_append.mp hx with hx | hx
      · exact h.told x hx
      · obtain rfl := List.mem_singleton.mp hx
        exact told_reported g.station payload

theorem prompt_through {backend : Backend}
    (hb : backend = .simulated ∨ backend = .hardware .scripted) (bench : Bench)
    (capacity epoch : Nat) (moves : List Move) :
    Prompt ((start backend bench capacity epoch).through moves) := by
  induction moves using List.reverseRecOn with
  | nil => exact ⟨hb, by rintro id length looks ⟨⟩⟩
  | append_singleton moves m ih =>
    rw [through_snoc]
    exact ih.after ((inOrder_start backend bench capacity epoch).through moves) m

theorem dispatched_through {backend : Backend}
    (hb : backend = .simulated ∨ backend = .hardware .scripted) (bench : Bench)
    (capacity epoch : Nat) (moves : List Move) :
    let g₀ := start backend bench capacity epoch
    ∃ served outcomes, Dispatched bench (history asks g₀ moves) (history returns g₀ moves)
      (g₀.through moves) served outcomes := by
  intro g₀
  induction moves using List.reverseRecOn with
  | nil =>
    refine ⟨[], [], rfl, rfl, rfl, ?_, rfl, by simp⟩
    simp [g₀, start, Station.aired, delivered]
  | append_singleton moves m ih =>
    obtain ⟨served, outcomes, h⟩ := ih
    rw [history_snoc, history_snoc, through_snoc]
    exact h.after (prompt_through hb bench capacity epoch moves)
      ((inOrder_start backend bench capacity epoch).through moves) m

end RadioGateway.Gateway
