import RadioGateway.Http.Server
import RadioGateway.Proofs.Conservation

/-!
# What becomes of the packets that were accepted

Clients that come over HTTP take packets out of the buffer by polls only. A poll delivers what it
takes, except when it asks for the headers only: then the packets are gone.
-/

namespace RadioGateway.Gateway

-- ---------------------------------------------------------------------------
-- What is accepted, and what polls take
-- ---------------------------------------------------------------------------

def Inbox.packets (i : Inbox) : List Packet := i.buffer.packets.toList

/-- A packet that is published is accepted if there is room. -/
def Inbox.accepted (i : Inbox) : Deed → List Packet
  | .publish p => if i.buffer.isFull then [] else [p]
  | _ => []

def Inbox.taken (i : Inbox) : Deed → List Packet
  | .poll => i.packets
  | _ => []

/-- What is seen at each deed, in order. -/
def Inbox.history (see : Inbox → Deed → List Packet) (i : Inbox) : List Deed → List Packet
  | [] => []
  | d :: ds => see i d ++ (i.perform d).history see ds

theorem Inbox.history_append (see : Inbox → Deed → List Packet) (i : Inbox) (ds more : List Deed) :
    i.history see (ds ++ more) = i.history see ds ++ (ds.foldl perform i).history see more := by
  induction ds generalizing i with
  | nil => rfl
  | cons d ds ih => simp [history, ih]

theorem Inbox.packets_perform (i : Inbox) (d : Deed) :
    i.packets ++ i.accepted d = i.taken d ++ (i.perform d).packets := by
  cases d with
  | publish p =>
    simp only [packets, accepted, taken, perform, buffer_publish, Buffer.push]
    split <;> simp
  | poll => simp [packets, accepted, taken, perform, drain, Buffer.drain]
  | discard | sent => simp [packets, accepted, taken, perform]

theorem Inbox.packets_foldl (i : Inbox) (ds : List Deed) :
    i.packets ++ i.history accepted ds = i.history taken ds ++ (ds.foldl perform i).packets := by
  induction ds generalizing i with
  | nil => simp [history]
  | cons d ds ih =>
    calc i.packets ++ i.history accepted (d :: ds)
        = i.taken d ++ ((i.perform d).packets ++ (i.perform d).history accepted ds) := by
          rw [history, ← List.append_assoc, packets_perform, List.append_assoc]
      _ = i.history taken (d :: ds) ++ ((d :: ds).foldl perform i).packets := by
          rw [ih, history, List.append_assoc, List.foldl_cons]

/-- The counters know of every packet that was accepted. -/
theorem Inbox.length_accepted (i : Inbox) (ds : List Deed) :
    (i.history accepted ds).length + (ds.foldl perform i).stats.dropped + i.stats.received =
      (ds.foldl perform i).stats.received + i.stats.dropped := by
  induction ds generalizing i with
  | nil => simp [history, Nat.add_comm]
  | cons d ds ih =>
    have hd : (i.accepted d).length + (i.perform d).stats.dropped + i.stats.received =
        (i.perform d).stats.received + i.stats.dropped := by
      cases d with
      | publish p =>
        simp only [accepted, perform, publish]
        split <;> simp only [Stats.recordDropped, Stats.recordReceived, List.length_nil,
          List.length_singleton] <;> omega
      | discard | poll | sent =>
        simp only [accepted, perform, drain, Stats.recordDecodeError,
          Stats.recordSent, List.length_nil]
        omega
    have hds := ih (i.perform d)
    rw [history, List.length_append, List.foldl_cons]
    omega

theorem Inbox.history_taken_of_no_poll (i : Inbox) {ds : List Deed} (h : .poll ∉ ds) :
    i.history taken ds = [] := by
  induction ds generalizing i with
  | nil => rfl
  | cons d ds ih =>
    rw [List.mem_cons, not_or] at h
    rw [history, ih _ h.2, List.append_nil]
    cases d with
    | poll => exact absurd rfl h.1
    | publish | discard | sent => rfl

-- ---------------------------------------------------------------------------
-- As long as nobody polls
-- ---------------------------------------------------------------------------

/-- From one moment to another nobody polls. -/
def Feeds (g g' : Gateway) : Prop :=
  ∃ ds : List Deed, .poll ∉ ds ∧ g'.inbox = ds.foldl Inbox.perform g.inbox

variable {g g' g'' : Gateway}

theorem Feeds.of_inbox (h : g'.inbox = g.inbox) : Feeds g g' := ⟨[], by simp, h⟩

theorem Feeds.trans (h : Feeds g g') (h' : Feeds g' g'') : Feeds g g'' := by
  obtain ⟨ds, hd, hi⟩ := h
  obtain ⟨more, hm, hi'⟩ := h'
  refine ⟨ds ++ more, ?_, by rw [hi', hi, List.foldl_append]⟩
  rw [List.mem_append, not_or]
  exact ⟨hd, hm⟩

theorem Feeds.packets (h : Feeds g g') :
    ∃ ds : List Deed, g'.inbox = ds.foldl Inbox.perform g.inbox ∧
      g.inbox.history Inbox.taken ds = [] ∧
      g'.inbox.packets = g.inbox.packets ++ g.inbox.history Inbox.accepted ds := by
  obtain ⟨ds, hd, hi⟩ := h
  have htaken := g.inbox.history_taken_of_no_poll hd
  have hall := g.inbox.packets_foldl ds
  rw [htaken, List.nil_append] at hall
  exact ⟨ds, hi, htaken, by rw [hi, hall]⟩

theorem feeds_accept (f : Radio.Frame) (timestamp : Float)
    (h : g'.inbox = (g.inbox.accept f timestamp).1) : Feeds g g' := by
  unfold Inbox.accept at h
  split at h
  · rename_i p _
    exact ⟨[.publish p], by simp, h⟩
  · exact ⟨[.discard], by simp, h⟩

theorem feeds_progressListen (g : Gateway) (id : Nat) (t : Timing) (deadline : Nat)
    (e : Station.Effect Station (Station.Progress Station.Listening Station.Heard)) :
    Feeds g (g.progressListen id t deadline e) := by
  unfold progressListen heard
  simp only
  split
  · split
    · exact .of_inbox (by simp)
    · rename_i f _
      exact feeds_accept f _ (by simp; rfl)
    · exact .of_inbox (by simp)
    · exact .of_inbox (by simp)
  · exact .of_inbox (by simp)

theorem feeds_resumeListener (g : Gateway) (id : Nat) : Feeds g (g.resumeListener id) := by
  unfold resumeListener
  split
  · exact .of_inbox rfl
  · rename_i t stage _
    cases stage with
    | proceeding deadline => cases deadline <;> exact .of_inbox (by simp)
    | simulating =>
      refine ⟨[.publish (.synthetic g.timestamp)], by simp, ?_⟩
      simp [Inbox.acceptSynthetic, Inbox.perform]
    | waitingRadio deadline slice =>
      simp only [listenSlice]
      split
      · exact feeds_progressListen g id t deadline _
      · exact .of_inbox (by simp)
    | listening deadline l =>
      simp only
      split
      · exact feeds_progressListen g id t deadline _
      · exact .of_inbox (by simp)
    | starting | idle | backingOff | crashed | restarting => exact .of_inbox (by simp)

theorem feeds_after (g : Gateway) {m : Move} (hm : m ≠ .poll) : Feeds g (g.after m) := by
  cases m with
  | resume p =>
    cases hp : g.goes p with
    | false => exact .of_inbox (by rw [after_resume_of_not_goes hp])
    | true =>
      have hdepart : Feeds g (g.depart p) := .of_inbox (by simp)
      rw [after_resume hp]
      refine hdepart.trans ?_
      cases p with
      | listener id => exact feeds_resumeListener _ id
      | client id =>
        rcases (sends_resumeClient (g.depart (.client id)) id).inbox with h | h
        · exact .of_inbox h
        · exact ⟨[.sent], by simp, h⟩
  | poll => exact absurd rfl hm
  | forget id =>
    simp only [after]
    split <;> exact .of_inbox rfl
  | arrive | enlist | dismiss => exact .of_inbox (by simp [after])
  | elapse | stimulate | relog => exact .of_inbox rfl

theorem feeds_settleWithin (steps : Nat) (g : Gateway) : Feeds g (settleWithin steps g) := by
  induction steps generalizing g with
  | zero => exact .of_inbox rfl
  | succ steps ih =>
    have hnext : Feeds g g.next := by
      rcases next_eq g with h | ⟨p, h⟩ <;> rw [h]
      · exact .of_inbox rfl
      · exact feeds_after g (by rintro ⟨⟩)
    unfold settleWithin
    split
    · exact .of_inbox rfl
    · exact hnext.trans (ih g.next)

theorem feeds_settle (g : Gateway) : Feeds g g.settle := feeds_settleWithin g.stepBound g

theorem feeds_passTo (g : Gateway) (clock : Nat) : Feeds g (g.passTo clock) :=
  (Feeds.of_inbox rfl).trans (feeds_settle (g.elapse clock))

theorem feeds_submit (g : Gateway) (origin : Origin) (manner : Manner) (r : Request) :
    Feeds g (g.submit origin manner r).1 :=
  (feeds_after g (m := .arrive origin manner r) (by rintro ⟨⟩)).trans (feeds_settle _)

theorem feeds_awaitWithin (g : Gateway) (id ms : Nat) : Feeds g (g.awaitWithin id ms) := by
  induction ms using Nat.strongRecOn generalizing g with
  | _ ms ih =>
    rw [awaitWithin]
    split
    · exact .of_inbox rfl
    · split
      · exact .of_inbox rfl
      · rename_i pause hp
        have hpause := pause?_bounds hp
        exact (feeds_passTo g _).trans (ih (ms - pause) (by omega) _)

theorem feeds_collect (g : Gateway) (id : Nat) : Feeds g (g.collect id).1 := by
  have hforget (g : Gateway) : Feeds g (g.forget id) := .of_inbox rfl
  exact (feeds_awaitWithin g id g.patience).trans (hforget _)

end RadioGateway.Gateway

namespace RadioGateway.Http

open RadioGateway.Gateway

-- ---------------------------------------------------------------------------
-- Requests that poll
-- ---------------------------------------------------------------------------

theorem Endpoint.find?_eq_some {path : String} {e : Endpoint} :
    find? path = some e ↔ e.path = path := by
  constructor
  · intro h
    simpa using List.find?_some h
  · rintro rfl
    cases e <;> decide

theorem Request.call_eq_poll {r : Request} :
    r.call = .poll ↔ r.path = Endpoint.poll.path ∧ (r.method = "GET" ∨ r.method = "HEAD") := by
  unfold Request.call
  simp only
  split
  · rename_i ho
    rw [ho]
    exact ⟨nofun, fun h => absurd h.2 (by decide)⟩
  · cases hf : Endpoint.find? r.path with
    | none =>
      refine ⟨nofun, fun h => ?_⟩
      rw [Endpoint.find?_eq_some.mpr h.1.symm] at hf
      cases hf
    | some e =>
      rw [← Endpoint.find?_eq_some.mp hf]
      simp only
      split
      · rename_i hm
        cases e with
        | poll => simpa [Endpoint.call, Endpoint.methods] using hm
        | stats | health | disconnect => exact ⟨nofun, fun h => absurd h.1 (by decide)⟩
        | connect | send =>
          refine ⟨fun h => ?_, fun h => absurd h.1 (by decide)⟩
          simp only [Endpoint.call, Call.ofBody, Call.ofDocument] at h
          split at h
          · cases h
          · split at h <;> cases h
      · rename_i hm
        refine ⟨nofun, fun h => absurd ?_ hm⟩
        obtain rfl : e = .poll := by
          have he := h.1
          cases e <;> first | rfl | exact absurd he (by decide)
        simpa [Endpoint.methods] using h.2

-- ---------------------------------------------------------------------------
-- Bodies without packets
-- ---------------------------------------------------------------------------

theorem head_packetsBody (packets : List Packet) :
    (packetsBody packets).render.toList.head? = some '[' := by
  simp [packetsBody, Json.Value.render, Json.Value.write]

/-- The body is no array, so there are no packets in it. -/
def Response.Plain (r : Response) : Prop := r.body.toList.head? ≠ some '['

namespace Response

theorem Plain.body_ne {r : Response} (h : r.Plain) (packets : List Packet) :
    r.body ≠ (packetsBody packets).render := fun he => h (he ▸ head_packetsBody packets)

theorem Plain.forMethod {r : Response} (h : r.Plain) (method : String) :
    (r.forMethod method).Plain := by
  unfold Response.forMethod
  split
  · exact nofun
  · exact h

theorem plain_object (status : Nat) (members : List (String × Json.Value)) :
    (ofJson status (Json.Value.object members).render).Plain := by
  simp [Plain, ofJson, Json.Value.render, Json.Value.write]

theorem plain_failure (e : GatewayError) : (failure e).Plain := plain_object 500 _

theorem plain_ofOutcome (o : Outcome) : (ofOutcome o).Plain := by
  cases o with
  | error e => exact plain_failure e
  | ok answer => cases answer <;> exact plain_object 200 _

end Response

theorem Request.plain_of_answered {r : Request} {response : Response}
    (h : r.call = .answered response) : response.Plain := by
  have hofBody {body : List UInt8} {read : List UInt8 → Call}
      (hread : ∀ r', read body ≠ .answered r')
      (h : Call.ofBody body read = .answered response) : response.Plain := by
    unfold Call.ofBody at h
    split at h
    · cases h
      simp [Response.Plain, Response.tooLarge]
    · exact absurd h (hread response)
  unfold Request.call at h
  simp only at h
  split at h
  · cases h
    simp [Response.Plain, Response.preflight, Response.empty]
  · split at h
    · cases h
      simp [Response.Plain, Response.notFound, Response.empty]
    · split at h
      · rename_i e _ _
        cases e with
        | connect =>
          unfold Endpoint.call at h
          refine hofBody (fun r' => ?_) h
          split <;> exact nofun
        | send =>
          unfold Endpoint.call at h
          refine hofBody (fun r' => ?_) h
          unfold Call.ofDocument
          split <;> exact nofun
        | disconnect | poll | stats | health => cases h
      · cases h
        simp [Response.Plain, Response.methodNotAllowed, Response.empty]

-- ---------------------------------------------------------------------------
-- What requests do to the packets
-- ---------------------------------------------------------------------------

def Call.isPoll : Call → Bool
  | .poll => true
  | _ => false

theorem Call.isPoll_iff {c : Call} : c.isPoll = true ↔ c = .poll := by
  cases c <;> simp [isPoll]

/-- What happens at a gateway whose clients come over HTTP: a request is taken in, one that has
waited is answered, or something else goes on, which is no poll. -/
inductive Act where
  | request (manner : Manner) (r : Request)
  | answer (id : Nat)
  | move (m : Move) (hm : m ≠ .poll)

namespace Act

variable {a : Act} {g : Gateway}

def result (g : Gateway) : Act → Gateway × Option Response
  | .request manner r =>
    match serve g manner r with
    | (next, .answered response) => (next, some response)
    | (next, .pending _) => (next, none)
  | .answer id =>
    let (next, response) := (Exchange.pending id).finish g
    (next, some response)
  | .move m _ => (g.after m, none)

def next (a : Act) (g : Gateway) : Gateway := (a.result g).1

def response? (a : Act) (g : Gateway) : Option Response := (a.result g).2

def polls : Act → Bool
  | .request _ r => r.call.isPoll
  | .answer _ | .move _ _ => false

/-- Polls empty the buffer; nothing else takes packets out of it. -/
def removes (a : Act) (g : Gateway) : List Packet := if a.polls then g.inbox.packets else []

/-- The packets behind those that have been in the buffer before. -/
def accepts (a : Act) (g : Gateway) : List Packet :=
  if a.polls then [] else (a.next g).inbox.packets.drop g.inbox.packets.length

/-- The packets that are removed, if they are what the body of the response says. -/
def delivers (a : Act) (g : Gateway) : List Packet :=
  match a.response? g with
  | some response => if response.body = (packetsBody (a.removes g)).render then a.removes g else []
  | none => []

/-- The request asks for the headers of a poll. -/
def HeadsPoll : Act → Prop
  | .request _ r => r.method = "HEAD" ∧ r.path = Endpoint.poll.path
  | .answer _ | .move _ _ => False

theorem result_of_poll {manner : Manner} {r : Request} (h : r.call = .poll) :
    (Act.request manner r).result g = (g.withInbox g.inbox.drain.2,
      some ((Response.ok (packetsBody g.inbox.packets)).forMethod r.method)) := by
  simp only [result, serve, h, poll]
  rfl

theorem exists_of_polls (h : a.polls = true) : ∃ manner r, a = .request manner r ∧
    r.call = .poll := by
  cases a with
  | request manner r => exact ⟨manner, r, rfl, Call.isPoll_iff.mp h⟩
  | answer | move => cases h

theorem HeadsPoll.polls (h : a.HeadsPoll) : a.polls = true := by
  cases a with
  | request manner r => exact Call.isPoll_iff.mpr (Request.call_eq_poll.mpr ⟨h.2, .inr h.1⟩)
  | answer | move => cases h

theorem feeds (h : a.polls = false) : Feeds g (a.next g) := by
  cases a with
  | move m hm => exact feeds_after g hm
  | answer id => exact feeds_collect g id
  | request manner r =>
    simp only [next, result, serve]
    cases hc : r.call with
    | submit request => exact feeds_submit g .http manner request
    | poll => simp [polls, Call.isPoll, hc] at h
    | stats | health | failed | answered => exact .of_inbox rfl

/-- What is accepted and what is removed is what is done to the inbox. -/
theorem deeds (a : Act) (g : Gateway) : ∃ ds : List Deed,
    (a.next g).inbox = ds.foldl Inbox.perform g.inbox ∧
    a.accepts g = g.inbox.history Inbox.accepted ds ∧
      a.removes g = g.inbox.history Inbox.taken ds := by
  cases hp : a.polls with
  | true =>
    obtain ⟨manner, r, rfl, hr⟩ := exists_of_polls hp
    refine ⟨[.poll], ?_, ?_, ?_⟩
    · simp only [next, result_of_poll hr]
      rfl
    · simp [accepts, hp, Inbox.history, Inbox.accepted]
    · simp [removes, hp, Inbox.history, Inbox.taken]
  | false =>
    obtain ⟨ds, hi, htaken, hpackets⟩ := (feeds hp : Feeds g (a.next g)).packets
    refine ⟨ds, hi, ?_, ?_⟩
    · simp [accepts, hp, hpackets]
    · simp [removes, hp, htaken]

/-- Only what polls is answered by an array. -/
theorem plain {response : Response} (hp : a.polls = false) (hr : a.response? g = some response) :
    response.Plain := by
  cases a with
  | move m hm => cases hr
  | answer id =>
    obtain rfl : Response.ofOutcome _ = response := Option.some.inj hr
    exact Response.plain_ofOutcome _
  | request manner r =>
    simp only [response?, result, serve] at hr
    cases hc : r.call with
    | submit request =>
      rw [hc] at hr
      cases hr
    | poll => simp [polls, Call.isPoll, hc] at hp
    | stats | health =>
      rw [hc] at hr
      obtain rfl := Option.some.inj hr
      exact (Response.plain_object 200 _).forMethod _
    | failed e =>
      rw [hc] at hr
      obtain rfl := Option.some.inj hr
      exact Response.plain_failure e
    | answered response' =>
      rw [hc] at hr
      obtain rfl := Option.some.inj hr
      exact Request.plain_of_answered hc

theorem delivers_of_heads (h : a.HeadsPoll) (g : Gateway) :
    a.delivers g = [] ∧ a.removes g = g.inbox.packets ∧ ∃ response, a.response? g = some response ∧
      response.body = "" := by
  have hp := h.polls
  obtain ⟨manner, r, rfl, hr⟩ := exists_of_polls hp
  have hresponse : (Act.request manner r).response? g =
      some ((Response.ok (packetsBody g.inbox.packets)).forMethod r.method) := by
    simp only [response?, result_of_poll hr]
  have hbody : ((Response.ok (packetsBody g.inbox.packets)).forMethod r.method).body = "" := by
    simp [Response.forMethod, h.1]
  have hne (packets : List Packet) : "" ≠ (packetsBody packets).render := fun he =>
    absurd (he ▸ head_packetsBody packets) (by decide)
  refine ⟨?_, by simp [removes, hp], _, hresponse, hbody⟩
  simp only [delivers, hresponse, hbody, if_neg (hne _)]

theorem delivers_of_not_heads (h : ¬a.HeadsPoll) (g : Gateway) : a.delivers g = a.removes g := by
  cases hp : a.polls with
  | false =>
    have hnone : a.removes g = [] := by simp [removes, hp]
    unfold delivers
    rw [hnone]
    split
    · exact ite_self _
    · rfl
  | true =>
    obtain ⟨manner, r, rfl, hr⟩ := exists_of_polls hp
    have hm : r.method ≠ "HEAD" := fun hm => h ⟨hm, (Request.call_eq_poll.mp hr).1⟩
    have hbody : ((Response.ok (packetsBody g.inbox.packets)).forMethod r.method).body =
        (packetsBody ((Act.request manner r).removes g)).render := by
      simp [Response.forMethod, hm, Response.ok, Response.ofJson, removes, hp]
    simp only [delivers, response?, result_of_poll hr, hbody, if_true]

theorem length_delivers_le (a : Act) (g : Gateway) :
    (a.delivers g).length ≤ (a.removes g).length := by
  by_cases ha : a.HeadsPoll
  · rw [(delivers_of_heads ha g).1]
    exact Nat.zero_le _
  · rw [delivers_of_not_heads ha g]

end Act

-- ---------------------------------------------------------------------------
-- Runs
-- ---------------------------------------------------------------------------

def acting (g : Gateway) (acts : List Act) : Gateway := acts.foldl (fun g a => a.next g) g

/-- What is seen at each act, in the state it finds, in order. -/
def seen (see : Act → Gateway → List Packet) (g : Gateway) : List Act → List Packet
  | [] => []
  | a :: acts => see a g ++ seen see (a.next g) acts

theorem deeds_acting (g : Gateway) (acts : List Act) : ∃ ds : List Deed,
    (acting g acts).inbox = ds.foldl Inbox.perform g.inbox ∧
      seen Act.accepts g acts = g.inbox.history Inbox.accepted ds ∧
      seen Act.removes g acts = g.inbox.history Inbox.taken ds := by
  induction acts generalizing g with
  | nil => exact ⟨[], rfl, rfl, rfl⟩
  | cons a acts ih =>
    obtain ⟨ds, hi, haccepts, hremoves⟩ := a.deeds g
    obtain ⟨more, hi', haccepts', hremoves'⟩ := ih (a.next g)
    refine ⟨ds ++ more, ?_, ?_, ?_⟩
    · rw [List.foldl_append, ← hi]
      exact hi'
    · rw [seen, haccepts, haccepts', hi, Inbox.history_append]
    · rw [seen, hremoves, hremoves', hi, Inbox.history_append]

/-- What is accepted is removed or is still there, in order. -/
theorem accepted_eq (g : Gateway) (acts : List Act) :
    g.inbox.packets ++ seen Act.accepts g acts =
      seen Act.removes g acts ++ (acting g acts).inbox.packets := by
  obtain ⟨ds, hi, haccepts, hremoves⟩ := deeds_acting g acts
  rw [haccepts, hremoves, hi]
  exact g.inbox.packets_foldl ds

theorem length_delivered_le (g : Gateway) (acts : List Act) :
    (seen Act.delivers g acts).length ≤ (seen Act.removes g acts).length := by
  induction acts generalizing g with
  | nil => exact Nat.le_refl _
  | cons a acts ih =>
    simp only [seen, List.length_append]
    exact Nat.add_le_add (a.length_delivers_le g) (ih (a.next g))

/-- All that is removed is delivered as long as whoever asks for the headers of a poll finds
nothing. -/
theorem delivered_eq_removed_iff (g : Gateway) (acts : List Act) :
    seen Act.delivers g acts = seen Act.removes g acts ↔
      ∀ before a rest, acts = before ++ a :: rest → a.HeadsPoll →
        (acting g before).inbox.packets = [] := by
  induction acts generalizing g with
  | nil =>
    refine ⟨fun _ before a rest h => ?_, fun _ => rfl⟩
    simp at h
  | cons a acts ih =>
    constructor
    · intro h
      have hlen : (a.delivers g).length = (a.removes g).length := by
        have hboth := congrArg List.length h
        have hfirst := a.length_delivers_le g
        have hlater := length_delivered_le (a.next g) acts
        simp only [seen, List.length_append] at hboth
        omega
      obtain ⟨hhead, hrest⟩ := List.append_inj h hlen
      intro before b rest hacts hb
      cases before with
      | nil =>
        obtain ⟨rfl, rfl⟩ := List.cons.inj hacts
        obtain ⟨hnone, hall, -⟩ := Act.delivers_of_heads hb g
        exact hall.symm.trans (hhead.symm.trans hnone)
      | cons c before =>
        obtain ⟨rfl, rfl⟩ := List.cons.inj hacts
        exact (ih (a.next g)).mp hrest before b rest rfl hb
    · intro h
      have hhead : a.delivers g = a.removes g := by
        by_cases ha : a.HeadsPoll
        · obtain ⟨hnone, hall, -⟩ := Act.delivers_of_heads ha g
          exact hnone.trans ((h [] a acts rfl ha).symm.trans hall.symm)
        · exact Act.delivers_of_not_heads ha g
      have hrest := (ih (a.next g)).mpr fun before b rest hacts hb =>
        h (a :: before) b rest (by rw [hacts, List.cons_append]) hb
      rw [seen, seen, hhead, hrest]

/-- A request for the headers of a poll that finds packets takes them away for good. -/
theorem lost_of_heads {g : Gateway} {before : List Act} {a : Act} (hg : g.inbox.packets = [])
    (ha : a.HeadsPoll) (hpackets : (acting g before).inbox.packets.isEmpty = false) :
    seen Act.delivers g (before ++ [a]) ++ (acting g (before ++ [a])).inbox.packets ≠
      seen Act.accepts g (before ++ [a]) := by
  intro h
  have hall := accepted_eq g (before ++ [a])
  rw [hg, List.nil_append] at hall
  rw [hall, List.append_cancel_right_eq, delivered_eq_removed_iff] at h
  rw [h before a [] rfl ha] at hpackets
  cases hpackets

/-- Packets get lost by requests for the headers of a poll, and in no other way. With any radio,
whatever requests come and however they interleave with what is received: the packets that the
buffer accepted are those that requests have removed and those that are still there, in order. They
are those that were published and found room, as the counters say. What is removed is delivered,
except by a request for the headers of a poll; so the responses and the buffer have all packets
exactly if every such request found the buffer empty. No response but that to a poll has packets in
its body. -/
theorem packets_delivered (backend : Station.Backend) (bench : Station.Bench) (capacity epoch : Nat)
    (acts : List Act) :
    let g₀ := Gateway.start backend bench capacity epoch
    let g := acting g₀ acts
    let accepted := seen Act.accepts g₀ acts
    accepted = seen Act.removes g₀ acts ++ g.inbox.packets ∧
    (∃ ds : List Deed, g.inbox = ds.foldl Inbox.perform (.withCapacity capacity) ∧
      accepted = (Inbox.withCapacity capacity).history Inbox.accepted ds) ∧
    accepted.length + g.inbox.stats.dropped = g.inbox.stats.received ∧
    (seen Act.delivers g₀ acts ++ g.inbox.packets = accepted ↔
      ∀ before a rest, acts = before ++ a :: rest → a.HeadsPoll →
        (acting g₀ before).inbox.packets = []) ∧
    (∀ a : Act, ¬a.HeadsPoll → a.delivers g = a.removes g) ∧
    (∀ a : Act, a.HeadsPoll → a.delivers g = [] ∧ a.removes g = g.inbox.packets ∧
      ∃ response, a.response? g = some response ∧ response.body = "") ∧
    ∀ (a : Act) (response : Response), a.polls = false → a.response? g = some response →
      ∀ packets, response.body ≠ (packetsBody packets).render := by
  intro g₀ g accepted
  obtain ⟨ds, hi, haccepts, -⟩ := deeds_acting g₀ acts
  have hall : accepted = seen Act.removes g₀ acts ++ g.inbox.packets := accepted_eq g₀ acts
  refine ⟨hall, ⟨ds, hi, haccepts⟩, ?_, ?_, fun a ha => Act.delivers_of_not_heads ha g,
    fun a ha => Act.delivers_of_heads ha g, fun a response hp hr => (Act.plain hp hr).body_ne⟩
  · have hlength := g₀.inbox.length_accepted ds
    rw [← haccepts, ← hi] at hlength
    exact hlength
  · rw [hall, List.append_cancel_right_eq]
    exact delivered_eq_removed_iff g₀ acts

/-- With a simulated radio the first packet comes in, and a request for the headers takes it
away. -/
theorem packet_lost :
    let before : List Act :=
      [.move (.enlist { simulationInterval := 100 }) nofun, .move (.resume (.listener 0)) nofun,
       .move (.elapse 100) nofun, .move (.resume (.listener 0)) nofun]
    let acts := before ++ [.request .foreground { method := "HEAD", target := "/api/lora/poll" }]
    let g₀ := Gateway.start .simulated { board := { chip := Chip.fresh Chip.chipVersion } } 100 0
    seen Act.delivers g₀ acts ++ (acting g₀ acts).inbox.packets ≠ seen Act.accepts g₀ acts := by
  intro before acts g₀
  have hpackets : (acting g₀ before).inbox.packets.isEmpty = false := by decide +kernel
  exact lost_of_heads rfl ⟨rfl, by decide⟩ hpackets

end RadioGateway.Http
