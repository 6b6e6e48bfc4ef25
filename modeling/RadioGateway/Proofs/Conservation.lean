import Mathlib.Data.List.Induction
import RadioGateway.Proofs.Bystanders
import RadioGateway.Proofs.Utf8

/-!
# Frames are conserved

With the scripted radio, whatever a receive loop takes from the front of what is to be received goes
through the inbox in the same step, once. Whatever else happens, at whatever moment, takes nothing
and gives nothing to the inbox.
-/

namespace RadioGateway.Gateway

open Function (update)
open RadioGateway.Radio (Frame Inbound Signal)
open RadioGateway.Text

def inbound (g : Gateway) : List Inbound := g.station.bench.script.inbound

variable {g g' g'' : Gateway} {id : Nat}

-- ---------------------------------------------------------------------------
-- Clients
-- ---------------------------------------------------------------------------

/-- A step that takes nothing, and that at most counts a payload as sent. -/
structure Sends (g g' : Gateway) : Prop where
  inbound : g'.inbound = g.inbound
  inbox : g'.inbox = g.inbox ∨ g'.inbox = { g.inbox with stats := g.inbox.stats.recordSent }
  listener? : g'.listener? = g.listener?

theorem Sends.of_keeps (hi : g'.inbound = g.inbound) (hb : g'.inbox = g.inbox)
    (hl : g'.listener? = g.listener?) : Sends g g' := ⟨hi, .inl hb, hl⟩

theorem sends_progressTransmit {length : Nat}
    {e : Station.Effect Station (Station.Progress Nat (Except Radio.RadioError Nat))}
    (he : e.state.bench.script.inbound = g.inbound) : Sends g (g.progressTransmit id length e) := by
  unfold progressTransmit transmitted
  simp only
  split
  · split
    · exact ⟨by simpa [inbound] using he, .inr (by simp), by simp⟩
    · exact .of_keeps (by simpa [inbound] using he) (by simp) (by simp)
  · exact .of_keeps (by simpa [inbound] using he) (by simp) (by simp)

theorem inbound_resumeClient {k : Stage} (hid : g.stage? id = some k) :
    (g.resumeClient id).inbound = g.inbound := by
  have hworks := works_resumeClient hid
  unfold inbound
  generalize (g.resumeClient id).station = s at hworks
  cases hworks with
  | idle => rfl
  | sends payload => exact g.station.inbound_beginSend payload
  | transmits length looks => exact g.station.inbound_resumeSend length looks
  | attach c => exact g.station.inbound_beginAttach c
  | finish c o => exact g.station.inbound_finishAttach o
  | detach => exact g.station.release_keeps.2.2

theorem sends_resumeClient (g : Gateway) (id : Nat) : Sends g (g.resumeClient id) := by
  cases hid : g.stage? id with
  | none =>
    have hstay : g.resumeClient id = g := by simp [resumeClient, hid]
    rw [hstay]
    exact .of_keeps rfl rfl rfl
  | some k =>
    cases hk : k.sends with
    | false =>
      obtain ⟨hb, hl⟩ := apart_resumeClient hid hk
      exact .of_keeps (inbound_resumeClient hid) hb hl
    | true =>
      unfold resumeClient
      rw [hid]
      cases k with
      | arrived r =>
        cases r with
        | send payload => cases payload <;> exact .of_keeps (by simp [inbound]) (by simp) (by simp)
        | connect | disconnect => cases hk
      | waitingRadio e =>
        cases e with
        | send payload => exact sends_progressTransmit (g.station.inbound_beginSend payload)
        | attach | confirm | detach => cases hk
      | transmitting length looks => exact sends_progressTransmit (g.station.inbound_resumeSend _ _)
      | waitingTurn | opening | finished => cases hk

-- ---------------------------------------------------------------------------
-- Receive loops
-- ---------------------------------------------------------------------------

/-- The stages a loop goes through with the scripted radio. -/
def ListenerStage.scripted : ListenerStage → Bool
  | .simulating | .listening _ (.looking _) => false
  | _ => true

structure Scripted (g : Gateway) : Prop where
  backend : g.station.backend = .hardware .scripted
  stage : ∀ id l, g.listener? id = some l → l.stage.scripted = true

def Inbox.takeIn (i : Inbox) (timestamp : Float) : Inbound → Inbox
  | .frame f => (i.accept f timestamp).1
  | .failure _ | .crash => i

/-- A step that takes nothing, or what comes first, and that through the inbox. -/
inductive Hears (g g' : Gateway) : Prop
  | silence (hi : g'.inbound = g.inbound) (hb : g'.inbox = g.inbox)
  | takes {x : Inbound} {rest : List Inbound} (hi : g.inbound = x :: rest) (hi' : g'.inbound = rest)
      (hb : g'.inbox = g.inbox.takeIn g.timestamp x)

structure Listens (id : Nat) (g g' : Gateway) : Prop where
  hears : Hears g g'
  stage : ∃ k : ListenerStage, k.scripted = true ∧
    g'.listener? = update g.listener? id ((g.listener? id).map fun l => { l with stage := k })

theorem Listens.silent {k : ListenerStage} (hk : k.scripted = true) (hs : g'.station = g.station)
    (hb : g'.inbox = g.inbox) (hl : g'.listener? = update g.listener? id
      ((g.listener? id).map fun l => { l with stage := k })) : Listens id g g' :=
  ⟨.silence (by rw [inbound, hs]; rfl) hb, k, hk, hl⟩

theorem listens_iterate (hb : g.station.backend = .hardware .scripted) (events : List Log.Event)
    (t : Timing) : Listens id g ((g.note events).iterate id t) := by
  have : (g.note events).station.simulated = false := by simp [Station.simulated, hb]
  unfold iterate
  rw [this]
  exact .silent rfl (by simp) (by simp) (by simp; rfl)

theorem listens_nextSlice (g : Gateway) (id deadline : Nat) :
    Listens id g (g.nextSlice id deadline) := by
  unfold nextSlice
  split
  · exact .silent rfl (by simp) (by simp) (by simp; rfl)
  · exact .silent rfl (by simp) (by simp) (by simp; rfl)

/-- A slice takes what comes first, and what it has taken goes through the inbox before anybody else
goes on. -/
theorem listens_listenSlice (hb : g.station.backend = .hardware .scripted) (t : Timing)
    (deadline slice : Nat) : Listens id g (g.listenSlice id t deadline slice) := by
  unfold listenSlice Station.beginListen
  rw [hb]
  cases hd : g.station.driver with
  | none => exact .silent rfl (by simp) (by simp) (by simp; rfl)
  | some d =>
    cases hi : g.station.bench.script.inbound with
    | nil =>
      simp only [Station.Driver.receive, Radio.ScriptedRadio.takeInbound, hi, progressListen,
        Station.progressListen]
      exact ⟨.silence (by simp [inbound, hi]) (by simp), _, rfl, by simp; rfl⟩
    | cons x rest =>
      cases x with
      | frame f =>
        simp only [Station.Driver.receive, Radio.ScriptedRadio.takeInbound, hi, progressListen,
          Station.progressListen, Station.Received.heard, heard, Except.map, Option.map]
        exact ⟨.takes hi (by simp [inbound]) (by simp [Inbox.takeIn, timestamp]),
          _, rfl, by simp; rfl⟩
      | failure reason =>
        simp only [Station.Driver.receive, Radio.ScriptedRadio.takeInbound, hi, progressListen,
          Station.progressListen, Station.Received.heard, heard, Except.map]
        exact ⟨.takes hi (by simp [inbound]) (by simp [Inbox.takeIn]), _, rfl, by simp; rfl⟩
      | crash =>
        simp only [Station.Driver.receive, Radio.ScriptedRadio.takeInbound, hi, progressListen,
          Station.progressListen, Station.Received.heard, heard, Except.map]
        exact ⟨.takes hi (by simp [inbound]) (by simp [Inbox.takeIn]), _, rfl, by simp; rfl⟩

theorem listens_resumeListener (h : Scripted g) (id : Nat) :
    Listens id g (g.resumeListener id) := by
  have hkeep {g' : Gateway} {k : ListenerStage} (hk : k.scripted = true)
      (hs : g'.station = g.station) (hb : g'.inbox = g.inbox)
      (hl : g'.listener? = update g.listener? id ((g.listener? id).map fun l =>
        { l with stage := k })) :
      Listens id g g' := .silent hk hs hb hl
  unfold resumeListener
  split
  · rename_i hid
    exact hkeep (k := .starting) rfl rfl rfl
      (by rw [hid, Option.map_none, ← hid, Function.update_eq_self])
  · rename_i t stage hid
    have hsc := h.stage id _ hid
    cases stage with
    | starting => exact listens_iterate h.backend _ t
    | proceeding deadline =>
      cases deadline with
      | none => exact listens_iterate h.backend [] t
      | some deadline => exact listens_nextSlice g id deadline
    | simulating => cases hsc
    | waitingRadio deadline slice => exact listens_listenSlice h.backend t deadline slice
    | listening deadline l =>
      cases l with
      | looking looks => cases hsc
      | quiet =>
        cases hd : g.station.driver with
        | none =>
          simp only [Station.resumeListen, hd]
          exact hkeep rfl (by simp) (by simp) (by simp; rfl)
        | some d =>
          simp only [Station.resumeListen, hd, Option.map_some, Station.Driver.resumeReceive,
            progressListen, Station.progressListen, Station.Received.heard, heard, Except.map,
            Option.map_none]
          exact ⟨.silence (by simp [inbound]) (by simp), _, rfl, by simp; rfl⟩
    | idle deadline => exact listens_nextSlice g id deadline
    | backingOff => exact listens_iterate h.backend [] t
    | crashed reason => exact hkeep rfl (by simp) (by simp) (by simp; rfl)
    | restarting => exact hkeep rfl (by simp) (by simp) (by simp; rfl)

-- ---------------------------------------------------------------------------
-- Moves
-- ---------------------------------------------------------------------------

def queued : Move → List Inbound
  | .stimulate (.queue x) => [x]
  | _ => []

/-- What is to be received before a move and no longer after it. -/
def consumed (g : Gateway) (m : Move) : List Inbound :=
  g.inbound.take (g.inbound.length - (g.after m).inbound.length)

/-- All that a move can do to what is to be received and to the inbox. -/
inductive Passes (g : Gateway) (m : Move) : Prop
  | takes {x : Inbound} {rest : List Inbound} (hm : m ≠ .poll) (hq : queued m = [])
      (hi : g.inbound = x :: rest) (hi' : (g.after m).inbound = rest)
      (hb : (g.after m).inbox = g.inbox.takeIn g.timestamp x)
  | keeps (hm : m ≠ .poll) (hi : (g.after m).inbound = g.inbound ++ queued m)
      (hb : (g.after m).inbox = g.inbox)
  | sends (hm : m ≠ .poll) (hi : (g.after m).inbound = g.inbound ++ queued m)
      (hb : (g.after m).inbox = { g.inbox with stats := g.inbox.stats.recordSent })
  | polls (hm : m = .poll) (hi : (g.after m).inbound = g.inbound)
      (hb : (g.after m).inbox = g.inbox.drain.2)

theorem inbound_stimulate (g : Gateway) (x : Stimulus) :
    (g.stimulate x).inbound = g.inbound ++ queued (.stimulate x) := by
  cases x <;> simp [stimulate, inbound, Stimulus.apply, queued]

theorem Scripted.depart (h : Scripted g) (p : Party) : Scripted (g.depart p) :=
  ⟨by simpa using h.backend, by simpa using h.stage⟩

theorem passes (h : Scripted g) (m : Move) : Passes g m := by
  by_cases hpoll : m = .poll
  · subst hpoll
    exact .polls rfl rfl rfl
  cases m with
  | resume p =>
    cases hp : g.goes p with
    | false =>
      have hafter := after_resume_of_not_goes hp
      exact .keeps hpoll (by rw [hafter]; simp [queued]) (by rw [hafter])
    | true =>
      have hin : (g.depart p).inbound = g.inbound := by simp [inbound]
      have hts : (g.depart p).timestamp = g.timestamp := by simp [timestamp]
      have hbox : (g.depart p).inbox = g.inbox := by simp
      have hq : queued (.resume p) = [] := rfl
      cases p with
      | client id =>
        have hs := sends_resumeClient (g.depart (.client id)) id
        have hi : (g.after (.resume (.client id))).inbound = g.inbound ++
            queued (.resume (.client id)) := by
          rw [after_resume hp, hq, List.append_nil]
          exact hs.inbound.trans hin
        rcases hs.inbox with hb | hb
        · exact .keeps hpoll hi (by rw [after_resume hp]; exact hb.trans hbox)
        · exact .sends hpoll hi (by rw [after_resume hp, ← hbox]; exact hb)
      | listener id =>
        have hafter := after_resume hp
        rcases (listens_resumeListener (h.depart (.listener id)) id).hears
          with ⟨hi, hb⟩ | ⟨hi, hi', hb⟩
        · refine .keeps hpoll ?_ (by rw [hafter]; exact hb.trans hbox)
          rw [hafter, hq, List.append_nil]
          exact hi.trans hin
        · refine .takes hpoll rfl (hin ▸ hi) (by rw [hafter]; exact hi') ?_
          rw [hafter, ← hbox, ← hts]
          exact hb
  | arrive origin manner r =>
    exact .keeps hpoll (by simp [after, inbound, queued]) (by simp [after])
  | elapse ms => exact .keeps hpoll (by simp [after, inbound, queued]) (by simp [after])
  | forget id =>
    refine .keeps hpoll ?_ ?_
    · simp only [after]; split <;> simp [inbound, queued]
    · simp only [after]; split <;> simp
  | poll => exact absurd rfl hpoll
  | enlist t => exact .keeps hpoll (by simp [after, inbound, queued]) (by simp [after])
  | dismiss id => exact .keeps hpoll (by simp [after, inbound, queued]) (by simp [after])
  | stimulate x => exact .keeps hpoll (inbound_stimulate g x) rfl
  | relog news => exact .keeps hpoll (by simp [after, inbound, queued]) rfl

/-- No loop gets to a stage where it hears anything but the scripted radio. -/
theorem Scripted.after (h : Scripted g) (ho : InOrder g) (m : Move) : Scripted (g.after m) := by
  refine ⟨(backend_after g m).trans h.backend, ?_⟩
  have hkeep {g' : Gateway} (hl : g'.listener? = g.listener?) :
      ∀ id l, g'.listener? id = some l → l.stage.scripted = true := by
    rw [hl]; exact h.stage
  cases m with
  | resume p =>
    cases hp : g.goes p with
    | false => exact hkeep (by rw [after_resume_of_not_goes hp])
    | true =>
      rw [after_resume hp]
      cases p with
      | client id =>
        exact hkeep ((sends_resumeClient (g.depart (.client id)) id).listener?.trans (by simp))
      | listener id =>
        obtain ⟨k, hk, hl⟩ := (listens_resumeListener (h.depart (.listener id)) id).stage
        rw [resume, hl]
        refine (Function.forall_update_iff _ fun _ (o : Option Listener) =>
          ∀ l, o = some l → l.stage.scripted = true).mpr ⟨?_, fun x _ => by simpa using h.stage x⟩
        intro l hm
        obtain ⟨l', -, rfl⟩ := Option.map_eq_some_iff.mp hm
        exact hk
  | enlist t =>
    simp only [Gateway.after, listener?_enlist g t ho.listener?_next]
    refine (Function.forall_update_iff _ fun _ (o : Option Listener) =>
      ∀ l, o = some l → l.stage.scripted = true).mpr ⟨?_, fun x _ => h.stage x⟩
    rintro l ⟨⟩
    rfl
  | dismiss id =>
    simp only [Gateway.after, listener?_dismiss]
    refine (Function.forall_update_iff _ fun _ (o : Option Listener) =>
      ∀ l, o = some l → l.stage.scripted = true).mpr ⟨?_, fun x _ => h.stage x⟩
    rintro l ⟨⟩
  | forget id => exact hkeep (by simp only [Gateway.after]; split <;> simp)
  | arrive origin manner r => exact hkeep (by simp [Gateway.after])
  | elapse | poll | stimulate | relog => exact hkeep rfl

theorem scripted_start (bench : Station.Bench) (capacity epoch : Nat) :
    Scripted (start (.hardware .scripted) bench capacity epoch) := by
  refine ⟨rfl, ?_⟩
  rintro id l ⟨⟩

theorem scripted_through (bench : Station.Bench) (capacity epoch : Nat) (moves : List Move) :
    Scripted ((start (.hardware .scripted) bench capacity epoch).through moves) := by
  induction moves using List.reverseRecOn with
  | nil => exact scripted_start bench capacity epoch
  | append_singleton moves m ih =>
    rw [through_snoc]
    exact ih.after ((inOrder_start _ bench capacity epoch).through moves) m

-- ---------------------------------------------------------------------------
-- What is taken goes through the inbox
-- ---------------------------------------------------------------------------

inductive Deed where
  | publish (p : Packet)
  | discard
  | poll
  | sent

def Inbox.perform (i : Inbox) : Deed → Inbox
  | .publish p => (i.publish p).1
  | .discard => { i with stats := i.stats.recordDecodeError }
  | .poll => i.drain.2
  | .sent => { i with stats := i.stats.recordSent }

def text? : Inbound → Option (String × Signal)
  | .frame f =>
    match Utf8.decode f.data with
    | .ok cs => some (String.ofList cs, f.signal)
    | .error _ => none
  | .failure _ | .crash => none

def garbled? : Inbound → Option Frame
  | .frame f =>
    match Utf8.decode f.data with
    | .ok _ => none
    | .error _ => some f
  | .failure _ | .crash => none

/-- What is done to the inbox with something that was received. -/
def deedsOf (timestamp : Float) (x : Inbound) : List Deed :=
  ((text? x).map fun (data, signal) => .publish { data, signal, timestamp }).toList ++
    ((garbled? x).map fun _ => .discard).toList

def deeds (g : Gateway) (m : Move) : List Deed :=
  (consumed g m).flatMap (deedsOf g.timestamp) ++
    (match m with
      | .poll => [.poll]
      | _ => []) ++
    List.replicate ((g.after m).inbox.stats.sent - g.inbox.stats.sent) .sent

theorem takeIn_eq (i : Inbox) (timestamp : Float) (x : Inbound) :
    i.takeIn timestamp x = (deedsOf timestamp x).foldl Inbox.perform i := by
  cases x with
  | frame f =>
    simp only [Inbox.takeIn, Inbox.accept, Packet.ofFrame, deedsOf, text?, garbled?]
    cases Utf8.decode f.data <;> rfl
  | failure reason => rfl
  | crash => rfl

theorem sent_publish (i : Inbox) (p : Packet) : (i.publish p).1.stats.sent = i.stats.sent := by
  unfold Inbox.publish
  split <;> rfl

theorem sent_takeIn (i : Inbox) (timestamp : Float) (x : Inbound) :
    (i.takeIn timestamp x).stats.sent = i.stats.sent := by
  cases x with
  | frame f =>
    simp only [Inbox.takeIn, Inbox.accept]
    split
    · exact sent_publish i _
    · rfl
  | failure reason => rfl
  | crash => rfl

theorem consumed_eq_nil {m : Move} (more : List Inbound)
    (h : (g.after m).inbound = g.inbound ++ more) : consumed g m = [] := by
  simp [consumed, h]

theorem consumed_eq_singleton {m : Move} {x : Inbound} {rest : List Inbound}
    (h : g.inbound = x :: rest) (h' : (g.after m).inbound = rest) : consumed g m = [x] := by
  simp [consumed, h, h']

/-- Nothing is lost and nothing is doubled between what is to be received and what has been. -/
theorem conserved_after (h : Scripted g) (m : Move) :
    g.inbound ++ queued m = consumed g m ++ (g.after m).inbound := by
  cases passes h m with
  | takes hm hq hi hi' hb => rw [consumed_eq_singleton hi hi', hq, hi, hi', List.append_nil]; rfl
  | keeps hm hi hb => rw [consumed_eq_nil _ hi, hi, List.nil_append]
  | sends hm hi hb => rw [consumed_eq_nil _ hi, hi, List.nil_append]
  | polls hm hi hb =>
    subst hm
    rw [consumed_eq_nil [] (by rw [hi, List.append_nil]), hi, queued, List.append_nil]
    · rfl
    · rintro x ⟨⟩

/-- Nothing is done to the inbox but with what is taken, by polls and by sends. -/
theorem inbox_after (h : Scripted g) (m : Move) :
    (g.after m).inbox = (deeds g m).foldl Inbox.perform g.inbox := by
  have hpoll (hm : m ≠ .poll) : (match m with
      | .poll => [Deed.poll]
      | _ => []) = [] := by
    cases m <;> first | rfl | exact absurd rfl hm
  unfold deeds
  cases passes h m with
  | takes hm hq hi hi' hb =>
    rw [consumed_eq_singleton hi hi', hpoll hm, hb, sent_takeIn, Nat.sub_self]
    simpa using takeIn_eq g.inbox g.timestamp _
  | keeps hm hi hb => rw [consumed_eq_nil _ hi, hpoll hm, hb, Nat.sub_self]; rfl
  | sends hm hi hb =>
    have : { g.inbox with stats := g.inbox.stats.recordSent }.stats.sent - g.inbox.stats.sent = 1 :=
      Nat.add_sub_cancel_left ..
    rw [consumed_eq_nil _ hi, hpoll hm, hb, this]
    rfl
  | polls hm hi hb =>
    subst hm
    rw [consumed_eq_nil [] (by rw [hi, List.append_nil]), hb]
    simp [Inbox.drain, Inbox.perform]

-- ---------------------------------------------------------------------------
-- Accounts
-- ---------------------------------------------------------------------------

def Packet.view (p : Packet) : String × Signal := (p.data, p.signal)

def Deed.published? : Deed → Option (String × Signal)
  | .publish p => some p.view
  | _ => none

def Deed.discarded : Deed → Bool
  | .discard => true
  | _ => false

theorem received_foldl (ds : List Deed) (i : Inbox) : (ds.foldl Inbox.perform i).stats.received =
    i.stats.received + (ds.filterMap Deed.published?).length := by
  induction ds generalizing i with
  | nil => rfl
  | cons d ds ih =>
    rw [List.foldl_cons, ih]
    cases d with
    | publish p =>
      simp only [Inbox.perform, Inbox.received_publish, Deed.published?, List.filterMap_cons,
        List.length_cons]
      omega
    | discard | poll | sent => rfl

theorem decodeErrors_publish (i : Inbox) (p : Packet) :
    (i.publish p).1.stats.decodeErrors = i.stats.decodeErrors := by
  unfold Inbox.publish
  split <;> rfl

theorem decodeErrors_foldl (ds : List Deed) (i : Inbox) :
    (ds.foldl Inbox.perform i).stats.decodeErrors =
      i.stats.decodeErrors + (ds.filter Deed.discarded).length := by
  induction ds generalizing i with
  | nil => rfl
  | cons d ds ih =>
    rw [List.foldl_cons, ih]
    cases d with
    | publish p => simp [Inbox.perform, decodeErrors_publish, Deed.discarded]
    | discard =>
      rw [List.filter_cons_of_pos rfl, List.length_cons]
      simp only [Inbox.perform, Stats.recordDecodeError]
      omega
    | poll | sent => rfl

theorem published_deedsOf (timestamp : Float) (x : Inbound) :
    (deedsOf timestamp x).filterMap Deed.published? = (text? x).toList := by
  unfold deedsOf
  cases text? x <;> cases garbled? x <;> rfl

theorem discarded_deedsOf (timestamp : Float) (x : Inbound) :
    ((deedsOf timestamp x).filter Deed.discarded).length = (garbled? x).toList.length := by
  unfold deedsOf
  cases text? x <;> cases garbled? x <;> rfl

/-- Of all that is done to the inbox only what is taken is published, and in that order. -/
theorem published_deeds (g : Gateway) (m : Move) :
    (deeds g m).filterMap Deed.published? = (consumed g m).filterMap text? := by
  have htaken : ((consumed g m).flatMap (deedsOf g.timestamp)).filterMap Deed.published? =
      (consumed g m).filterMap text? := by
    rw [List.filterMap_flatMap, List.filterMap_eq_flatMap_toList]
    simp only [published_deedsOf]
  have hsent : (List.replicate ((g.after m).inbox.stats.sent - g.inbox.stats.sent)
      Deed.sent).filterMap Deed.published? = [] := by simp [Deed.published?]
  unfold deeds
  rw [List.filterMap_append, List.filterMap_append, htaken, hsent]
  cases m <;> simp [Deed.published?]

theorem discarded_deeds (g : Gateway) (m : Move) :
    ((deeds g m).filter Deed.discarded).length = ((consumed g m).filterMap garbled?).length := by
  have htaken : (((consumed g m).flatMap (deedsOf g.timestamp)).filter Deed.discarded).length =
      ((consumed g m).filterMap garbled?).length := by
    rw [List.filter_flatMap, List.filterMap_eq_flatMap_toList, List.length_flatMap,
      List.length_flatMap]
    simp only [discarded_deedsOf]
  have hsent : (List.replicate ((g.after m).inbox.stats.sent - g.inbox.stats.sent)
      Deed.sent).filter Deed.discarded = [] := by simp [Deed.discarded]
  unfold deeds
  rw [List.filter_append, List.filter_append, hsent, List.append_nil, List.length_append, htaken]
  cases m <;> simp [Deed.discarded]

def polled (g : Gateway) : Move → List Packet
  | .poll => g.poll.2
  | _ => []

/-- Of the texts that have come in all are with the clients or in the buffer, in order, but those
that were dropped. -/
structure Kept (i : Inbox) (seen : List Packet) (texts : List (String × Signal)) : Prop where
  sublist : ((seen ++ i.buffer.packets.toList).map Packet.view).Sublist texts
  dropped : (seen ++ i.buffer.packets.toList).length + i.stats.dropped = texts.length

namespace Kept

variable {i : Inbox} {seen : List Packet} {texts : List (String × Signal)}

theorem publish (h : Kept i seen texts) (p : Packet) :
    Kept (i.publish p).1 seen (texts ++ [p.view]) := by
  have hd := h.dropped
  unfold Inbox.publish Buffer.push
  split
  · refine ⟨h.sublist.trans (List.sublist_append_left ..), ?_⟩
    simp only [Stats.recordDropped, List.length_append, List.length_singleton] at hd ⊢
    omega
  · refine ⟨?_, ?_⟩
    · simp only [Array.toList_push, ← List.append_assoc, List.map_append, List.map_singleton]
      rw [← List.map_append]
      exact h.sublist.append (.refl _)
    · simp only [Stats.recordReceived, Array.toList_push, List.length_append,
        List.length_singleton] at hd ⊢
      omega

theorem takeIn (h : Kept i seen texts) (timestamp : Float) (x : Inbound) :
    Kept (i.takeIn timestamp x) seen (texts ++ (text? x).toList) := by
  cases x with
  | frame f =>
    simp only [Inbox.takeIn, Inbox.accept, Packet.ofFrame, text?]
    cases Utf8.decode f.data with
    | ok cs => exact h.publish _
    | error e => simpa using ⟨h.sublist, h.dropped⟩
  | failure reason => simpa [text?, Inbox.takeIn] using h
  | crash => simpa [text?, Inbox.takeIn] using h

theorem after (h : Kept g.inbox seen texts) (hg : Scripted g) (m : Move) :
    Kept (g.after m).inbox (seen ++ polled g m) (texts ++ (consumed g m).filterMap text?) := by
  have hpolled (hm : m ≠ .poll) : polled g m = [] := by
    cases m <;> first | rfl | exact absurd rfl hm
  cases passes hg m with
  | takes hm hq hi hi' hb =>
    rw [consumed_eq_singleton hi hi', hpolled hm, List.append_nil, hb,
      List.filterMap_eq_flatMap_toList, List.flatMap_singleton]
    exact h.takeIn _ _
  | keeps hm hi hb =>
    rw [consumed_eq_nil _ hi, hpolled hm, List.append_nil, List.filterMap_nil, List.append_nil, hb]
    exact h
  | sends hm hi hb =>
    rw [consumed_eq_nil _ hi, hpolled hm, List.append_nil, List.filterMap_nil, List.append_nil, hb]
    exact ⟨h.sublist, h.dropped⟩
  | polls hm hi hb =>
    subst hm
    rw [consumed_eq_nil [] (by rw [hi, List.append_nil]), List.filterMap_nil, List.append_nil, hb]
    have hseen : seen ++ polled g .poll ++ g.inbox.drain.2.buffer.packets.toList =
        seen ++ g.inbox.buffer.packets.toList := by simp [polled, poll, Inbox.drain, Buffer.drain]
    exact ⟨by rw [hseen]; exact h.sublist, by rw [hseen]; exact h.dropped⟩

end Kept

-- ---------------------------------------------------------------------------
-- Runs
-- ---------------------------------------------------------------------------

/-- What a run has come to that began with the scripted radio. -/
structure Conserved (bench : Station.Bench) (capacity epoch : Nat) (moves : List Move) : Prop where
  entries : bench.script.inbound ++ moves.flatMap queued =
    history consumed (start (.hardware .scripted) bench capacity epoch) moves ++
      ((start (.hardware .scripted) bench capacity epoch).through moves).inbound
  inbox : ((start (.hardware .scripted) bench capacity epoch).through moves).inbox =
    (history deeds (start (.hardware .scripted) bench capacity epoch) moves).foldl Inbox.perform
      (.withCapacity capacity)
  published : (history deeds (start (.hardware .scripted) bench capacity epoch) moves).filterMap
      Deed.published? =
    (history consumed (start (.hardware .scripted) bench capacity epoch) moves).filterMap text?
  discarded : ((history deeds (start (.hardware .scripted) bench capacity epoch) moves).filter
      Deed.discarded).length =
    ((history consumed (start (.hardware .scripted) bench capacity epoch) moves).filterMap
      garbled?).length
  kept : Kept ((start (.hardware .scripted) bench capacity epoch).through moves).inbox
    (history polled (start (.hardware .scripted) bench capacity epoch) moves)
    ((history consumed (start (.hardware .scripted) bench capacity epoch) moves).filterMap text?)

theorem conserved_through (bench : Station.Bench) (capacity epoch : Nat) (moves : List Move) :
    Conserved bench capacity epoch moves := by
  induction moves using List.reverseRecOn with
  | nil => exact ⟨by simp [history, inbound, start], rfl, rfl, rfl, ⟨.slnil, rfl⟩⟩
  | append_singleton moves m ih =>
    have hg := scripted_through bench capacity epoch moves
    constructor
    · rw [List.flatMap_append, List.flatMap_singleton, ← List.append_assoc,
        ih.entries, history_snoc, through_snoc, List.append_assoc, conserved_after hg m,
        List.append_assoc]
    · rw [through_snoc, history_snoc, inbox_after hg m, List.foldl_append, ih.inbox]
    · rw [history_snoc, history_snoc, List.filterMap_append, List.filterMap_append, ih.published,
        published_deeds]
    · rw [history_snoc, history_snoc, List.filter_append, List.filterMap_append, List.length_append,
        List.length_append, ih.discarded, discarded_deeds]
    · rw [history_snoc, history_snoc, through_snoc, List.filterMap_append]
      exact ih.kept.after hg m

/-- What has to become of an inbox when something is received: a text is published with its own
signal, what is no text is counted, and a failure or a crash leaves no trace. -/
def TakenIn (timestamp : Float) (i i' : Inbox) : Inbound → Prop
  | .frame f =>
    (∀ cs, f.data = Utf8.encode cs →
      i' = (i.publish { data := String.ofList cs, signal := f.signal, timestamp }).1) ∧
    ((∀ cs, f.data ≠ Utf8.encode cs) →
      i' = { i with stats := { i.stats with decodeErrors := i.stats.decodeErrors + 1 } })
  | .failure _ | .crash => i' = i

theorem takenIn_takeIn (timestamp : Float) (i : Inbox) (x : Inbound) :
    TakenIn timestamp i (i.takeIn timestamp x) x := by
  cases x with
  | frame f =>
    refine ⟨fun cs hcs => ?_, fun hno => ?_⟩
    · simp only [Inbox.takeIn, Inbox.accept, Packet.ofFrame, Utf8.decode_eq_ok_iff.mpr hcs]
    · cases hd : Utf8.decode f.data with
      | ok cs => exact absurd (Utf8.decode_eq_ok_iff.mp hd) (hno cs)
      | error e =>
        simp only [Inbox.takeIn, Inbox.accept, Packet.ofFrame, hd, Stats.recordDecodeError]
  | failure reason => rfl
  | crash => rfl

/-- Frames are conserved from the scripted radio to the buffer. In every run what was taken and what
is still to be received are what was queued, in order. The inbox is what it becomes by publishing
the texts among what was taken, in that order, each with its own signal, by counting the frames that
are no text, and by polls and sends; so the clients and the buffer have the texts in order but those
that were dropped. And at each move that may come next at most one thing is taken, and goes through
the inbox at once. -/
theorem frames_conserved (bench : Station.Bench) (capacity epoch : Nat) (moves : List Move) :
    let g₀ := start (.hardware .scripted) bench capacity epoch
    let g := g₀.through moves
    let taken := history consumed g₀ moves
    let seen := history polled g₀ moves ++ g.inbox.buffer.packets.toList
    bench.script.inbound ++ moves.flatMap queued = taken ++ g.inbound ∧
    g.inbox = (history deeds g₀ moves).foldl Inbox.perform (.withCapacity capacity) ∧
    (history deeds g₀ moves).filterMap Deed.published? = taken.filterMap text? ∧
    g.inbox.stats.received = (taken.filterMap text?).length ∧
    g.inbox.stats.decodeErrors = (taken.filterMap garbled?).length ∧
    (seen.map Packet.view).Sublist (taken.filterMap text?) ∧
    seen.length + g.inbox.stats.dropped = (taken.filterMap text?).length ∧
    ∀ m,
      (consumed g m = [] ∧
        ((g.after m).inbox = g.inbox ∨ m = .poll ∧ (g.after m).inbox = g.inbox.drain.2 ∨
          (g.after m).inbox = { g.inbox with stats := g.inbox.stats.recordSent })) ∨
      ∃ x, consumed g m = [x] ∧ TakenIn g.timestamp g.inbox (g.after m).inbox x := by
  intro g₀ g taken seen
  have h := conserved_through bench capacity epoch moves
  refine ⟨h.entries, h.inbox, h.published, ?_, ?_, h.kept.sublist, h.kept.dropped, fun m => ?_⟩
  · rw [← h.published]
    exact (congrArg (fun i => i.stats.received) h.inbox).trans
      ((received_foldl _ _).trans (Nat.zero_add _))
  · rw [← h.discarded]
    exact (congrArg (fun i => i.stats.decodeErrors) h.inbox).trans
      ((decodeErrors_foldl _ _).trans (Nat.zero_add _))
  · cases passes (scripted_through bench capacity epoch moves) m with
    | takes hm hq hi hi' hb =>
      refine .inr ⟨_, consumed_eq_singleton hi hi', ?_⟩
      rw [hb]
      exact takenIn_takeIn _ _ _
    | keeps hm hi hb => exact .inl ⟨consumed_eq_nil _ hi, .inl hb⟩
    | sends hm hi hb => exact .inl ⟨consumed_eq_nil _ hi, .inr (.inr hb)⟩
    | polls hm hi hb =>
      exact .inl ⟨consumed_eq_nil [] (by rw [hi, List.append_nil]), .inr (.inl ⟨hm, hb⟩)⟩

end RadioGateway.Gateway
