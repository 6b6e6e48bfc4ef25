import RadioGateway.Http.Server
import RadioGateway.Proofs.Order
import RadioGateway.Proofs.Reading

/-!
# Documents are relayed as they are

What a client posts is read and encoded anew, and the radio is given the encoding. The encoding is
again a text of the same document and no text of it is shorter, so a document that is in compact
form already passes through octet for octet.
-/

namespace RadioGateway

open RadioGateway.Log (Event)
open RadioGateway.Radio (RadioError)

namespace Station

/-- A send would go through: the station is simulated, or has a scripted radio attached that will
not refuse it. -/
def Accepts (s : Station) : Prop :=
  s.backend = .simulated ∨
    s.backend = .hardware .scripted ∧ s.attached = true ∧ s.bench.script.nextSendError = none

/-- What a send adds to what the scripted radio has transmitted. -/
def relays (s : Station) (payload : List UInt8) : List (List UInt8) :=
  if s.simulated then [] else [payload]

theorem beginSend_of_accepts {s : Station} (h : s.Accepts) (payload : List UInt8) :
    let e := s.beginSend payload
    e.result = .finished (.ok payload.length) ∧ e.state.simulated = s.simulated ∧
      e.state.bench.script.transmitted = s.bench.script.transmitted ++ s.relays payload := by
  obtain hb | ⟨hb, hd, hsend⟩ := h
  · have hsim : s.simulated = true := by simp [simulated, hb]
    simp [beginSend, hb, relays, hsim]
  · have hsim : s.simulated = false := by simp [simulated, hb]
    obtain ⟨d, hd⟩ := Option.isSome_iff_exists.mp hd
    simp [beginSend, hb, hd, progressSend, Driver.transmit,
      Radio.ScriptedRadio.transmit, hsend, relays, simulated, Except.map]

end Station

namespace Gateway

variable {g : Gateway} {id : Nat} {payload : List UInt8}

-- ---------------------------------------------------------------------------
-- The way of a send
-- ---------------------------------------------------------------------------

theorem send_seeks (hp : g.goes (.client id) = true)
    (hid : g.stage? id = some (.arrived (.send (.ok payload)))) :
    g.after (.resume (.client id)) = (g.depart (.client id)).seekRadio id (.send payload) := by
  have hid' : (g.depart (.client id)).stage? id = some (.arrived (.send (.ok payload))) := by
    simpa using hid
  rw [after_resume hp]
  simp only [resume, resumeClient, hid']

/-- What a send leaves that the radio accepts. -/
structure Relays (g g' : Gateway) (id : Nat) (payload : List UInt8) : Prop where
  outcome : g'.outcome? id = some (.ok (.sent payload.length g.station.simulated))
  transmitted : g'.station.bench.script.transmitted =
    g.station.bench.script.transmitted ++ g.station.relays payload

theorem after_send (hp : g.goes (.client id) = true)
    (hid : g.stage? id = some (.waitingRadio (.send payload))) (ha : g.station.Accepts) :
    let e := g.station.beginSend payload
    let left := ((g.depart (.client id)).withStation e.state e.log).leaveRadio
    g.after (.resume (.client id)) =
      (left.withInbox { left.inbox with stats := left.inbox.stats.recordSent }).finish id
        (.ok (.sent payload.length g.station.simulated)) := by
  intro e left
  have hid' : (g.depart (.client id)).stage? id = some (.waitingRadio (.send payload)) := by
    simpa using hid
  obtain ⟨hresult, hsim, -⟩ := Station.beginSend_of_accepts ha payload
  rw [after_resume hp]
  simp [resume, resumeClient, hid', useRadio, progressTransmit, hresult, transmitted, hsim, left, e]

theorem send_relays (hp : g.goes (.client id) = true)
    (hid : g.stage? id = some (.waitingRadio (.send payload))) (ha : g.station.Accepts) :
    Relays g (g.after (.resume (.client id))) id payload := by
  obtain ⟨-, -, hsent⟩ := Station.beginSend_of_accepts ha payload
  rw [after_send hp hid ha]
  exact ⟨(outcome?_eq_some _ _).mpr (by simp [hid]), by simpa using hsent⟩

/-- A send that has not had the radio yet. -/
def Sending (g : Gateway) (id : Nat) (payload : List UInt8) : Prop :=
  g.stage? id = some (.arrived (.send (.ok payload))) ∨
  g.stage? id = some (.waitingRadio (.send payload))

/-- The move with which a send uses the radio. -/
def UsesRadio (id : Nat) (payload : List UInt8) (g : Gateway) (m : Move) : Prop :=
  m = .resume (.client id) ∧ g.goes (.client id) = true ∧
    g.stage? id = some (.waitingRadio (.send payload))

theorem sending_after (ho : InOrder g) (h : Sending g id payload) (m : Move) :
    Sending (g.after m) id payload ∨ UsesRadio id payload g m := by
  by_cases hm : m = .resume (.client id)
  · subst hm
    cases hp : g.goes (.client id) with
    | false => exact .inl (by rwa [after_resume_of_not_goes hp])
    | true =>
      obtain hid | hid := h
      · refine .inl (.inr ?_)
        rw [send_seeks hp hid]
        simp [hid]
      · exact .inr ⟨rfl, hp, hid⟩
  · exact .inl (h.imp (ho.stage?_after · rfl hm) (ho.stage?_after · rfl hm))

/-- Whatever happens meanwhile, a send waits until it uses the radio. -/
theorem sending_through (ho : InOrder g) (h : Sending g id payload) (moves : List Move) :
    Sending (g.through moves) id payload ∨
      ∃ before m rest, moves = before ++ m :: rest ∧ UsesRadio id payload (g.through before) m := by
  have hstep (g : Gateway) (m : Move) (h : InOrder g ∧ Sending g id payload) :
      (InOrder (g.after m) ∧ Sending (g.after m) id payload) ∨ UsesRadio id payload g m :=
    (sending_after h.1 h.2 m).imp_left fun hs => ⟨h.1.after m, hs⟩
  refine (through_until hstep ⟨ho, h⟩ moves).imp And.right ?_
  rintro ⟨before, m, rest, hmoves, -, huses⟩
  exact ⟨before, m, rest, hmoves, huses⟩

-- ---------------------------------------------------------------------------
-- With nobody else at it
-- ---------------------------------------------------------------------------

/-- All parties wait, and nobody has the radio. -/
structure AtRest (g : Gateway) : Prop where
  ready : g.ready = []
  yielding : g.yielding = []
  radio : g.radio.holder = none

theorem next_of_ready {p : Party} {rest : List Party} (h : g.ready = p :: rest) :
    g.next = g.after (.resume p) := by
  simp [next, after, resumeReady, goes, depart, h]

theorem next_of_yielding {p : Party} {rest : List Party} (hr : g.ready = [])
    (h : g.yielding = p :: rest) : g.next = g.after (.resume p) := by
  simp [next, after, resumeReady, goes, depart, hr, h]

theorem settleWithin_of_isQuiet (h : g.isQuiet = true) (steps : Nat) :
    settleWithin steps g = g := by
  cases steps with
  | zero => rfl
  | succ steps => rw [settleWithin, if_pos h]

theorem settle_of_two (h : g.isQuiet = false) (h' : g.next.isQuiet = false)
    (hq : g.next.next.isQuiet = true) : g.settle = g.next.next := by
  obtain ⟨steps, hsteps⟩ : ∃ steps, g.stepBound = steps + 1 + 1 :=
    ⟨g.stepBound - 2, by
      unfold stepBound
      omega⟩
  rw [settle, hsteps, settleWithin, h, if_neg (by decide), settleWithin, h', if_neg (by decide),
    settleWithin_of_isQuiet hq]

/-- One party can go on, and all others wait. -/
def Sole (g : Gateway) (p : Party) : Prop := g.ready ++ g.yielding = [p]

theorem Sole.next {p : Party} (h : Sole g p) : g.isQuiet = false ∧ g.goes p = true ∧
    g.next = g.after (.resume p) ∧ (g.depart p).ready = [] ∧ (g.depart p).yielding = [] := by
  obtain ⟨hr, hy⟩ | ⟨hr, hy⟩ := List.append_eq_singleton_iff.mp h
  · simp [isQuiet, goes, next_of_yielding hr hy, depart, hr, hy]
  · simp [isQuiet, goes, next_of_ready hr, depart, hr, hy]

theorem sole_arrive (hr : AtRest g) (origin : Origin) (manner : Manner) (r : Request) :
    Sole (g.arrive origin manner r) (.client g.nextId) := by
  simp only [Sole, arrive, wake]
  split <;> simp [hr.ready, hr.yielding]

theorem seekRadio_of_free (hr : g.radio.holder = none) (id : Nat) (e : Errand) :
    (g.seekRadio id e).ready = .client id :: g.ready ∧ (g.seekRadio id e).yielding = g.yielding ∧
      (g.seekRadio id e).radio.waiting = g.radio.waiting := by
  simp only [seekRadio_eq, Lock.acquire, hr]
  exact ⟨rfl, rfl, rfl⟩

/-- Nobody is let go on by a lock that nobody waits for. -/
theorem leaveRadio_of_nobody (hr : g.radio.waiting = []) :
    g.leaveRadio.ready = g.ready ∧ g.leaveRadio.yielding = g.yielding := by
  simp only [leaveRadio, Lock.release, hr]
  exact ⟨rfl, rfl⟩

/-- Alone and with the radio free, a send has the radio after one step. -/
theorem Sole.send_seeks (h : Sole g (.client id))
    (hid : g.stage? id = some (.arrived (.send (.ok payload)))) (hr : g.radio.holder = none) :
    Sole g.next (.client id) ∧ g.next.stage? id = some (.waitingRadio (.send payload)) ∧
      g.next.station = g.station ∧ g.next.radio.waiting = g.radio.waiting := by
  obtain ⟨-, hp, hnext, hready, hyielding⟩ := h.next
  obtain ⟨hready', hyielding', hwaiting⟩ := seekRadio_of_free (g := g.depart (.client id))
    (by simpa using hr) id (.send payload)
  rw [hnext, Gateway.send_seeks hp hid]
  refine ⟨?_, by simp [hid], by simp, by simpa using hwaiting⟩
  rw [Sole, hready', hyielding', hready, hyielding]
  rfl

/-- Alone and with the radio, a send is over after one step. -/
theorem Sole.send_relays (h : Sole g (.client id))
    (hid : g.stage? id = some (.waitingRadio (.send payload))) (hw : g.radio.waiting = [])
    (ha : g.station.Accepts) : g.next.isQuiet = true ∧ Relays g g.next id payload := by
  obtain ⟨-, hp, hnext, hready, hyielding⟩ := h.next
  rw [hnext]
  refine ⟨?_, Gateway.send_relays hp hid ha⟩
  let e := g.station.beginSend payload
  obtain ⟨hready', hyielding'⟩ := leaveRadio_of_nobody
    (g := (g.depart (.client id)).withStation e.state e.log) (by simpa using hw)
  have hready'' := hready'.trans hready
  have hyielding'' := hyielding'.trans hyielding
  rw [after_send hp hid ha, isQuiet]
  simp only [finish, withInbox, note, setStage]
  rw [hready'', hyielding'']
  rfl

/-- Nobody else being at it, a send is over before anything else happens. -/
theorem submit_at_rest (ho : InOrder g) (hr : AtRest g) (ha : g.station.Accepts) (origin : Origin)
    (manner : Manner) (payload : List UInt8) :
    Relays g (g.submit origin manner (.send (.ok payload))).1 g.nextId payload := by
  let arrived := g.arrive origin manner (.send (.ok payload))
  have hid : arrived.stage? g.nextId = some (.arrived (.send (.ok payload))) := by
    rw [stage?_arrive g origin manner _ ho.stage?_next, Function.update_self]
  have hsole : Sole arrived (.client g.nextId) := sole_arrive hr origin manner _
  have hsame : arrived.station = g.station ∧ arrived.radio = g.radio := by simp [arrived]
  obtain ⟨hsole', hid', hstation, hwaiting⟩ := hsole.send_seeks hid (hsame.2 ▸ hr.radio)
  have hw : arrived.next.radio.waiting = [] := by
    rw [hwaiting, hsame.2]
    exact ho.orderly.radio.sound hr.radio
  have hs : arrived.next.station = g.station := hstation.trans hsame.1
  obtain ⟨hquiet, hrelays⟩ := hsole'.send_relays hid' hw (hs ▸ ha)
  have hsettle : arrived.settle = arrived.next.next :=
    settle_of_two hsole.next.1 hsole'.next.1 hquiet
  rw [submit, hsettle]
  exact ⟨hs ▸ hrelays.outcome, hs ▸ hrelays.transmitted⟩

end Gateway

namespace Http

open RadioGateway.Gateway
open RadioGateway.Json (Value)
open RadioGateway.Text

variable {g : Gateway} {r : Request} {text payload : List UInt8} {v : Value}

-- ---------------------------------------------------------------------------
-- Requests
-- ---------------------------------------------------------------------------

/-- A request to send the document that a text is of. -/
structure Request.Posts (r : Request) (text : List UInt8) : Prop where
  method : r.method = "POST"
  path : r.path = Endpoint.send.path
  body : r.body = text

theorem Request.Posts.call (h : r.Posts text) (hl : text.length ≤ bodyLimit) :
    r.call = Call.ofDocument text := by
  have hfind : Endpoint.find? Endpoint.send.path = some .send := by decide
  have hmethods : Endpoint.send.methods.contains "POST" = true := by decide
  simp only [Request.call, h.path, hfind, h.method, hmethods, if_true, h.body,
    Endpoint.call, Call.ofBody, if_neg (Nat.not_lt.mpr hl)]
  rfl

theorem call_of_isText (hv : v.Built Value.Exact 127) (ht : v.IsText text)
    (hl : text.length ≤ bodyLimit) (hr : r.Posts text) :
    r.call = .submit (.send (.ok (Utf8.encode v.write))) := by
  rw [hr.call hl, Call.ofDocument, hv.read_of_isText ht]

/-- An outcome that is there as soon as the parties wait is the answer. -/
theorem respond_of_outcome (hcall : r.call = .submit (.send (.ok payload))) {outcome : Outcome}
    (ho : (g.submit .http .foreground (.send (.ok payload))).1.outcome? g.nextId = some outcome) :
    respond g r = ((g.submit .http .foreground (.send (.ok payload))).1.forget g.nextId,
      .ofOutcome outcome) := by
  generalize hg : (g.submit .http .foreground (.send (.ok payload))).1 = g' at ho
  have hsubmit : g.submit .http .foreground (.send (.ok payload)) = (g', g.nextId) := by
    rw [← hg]
    rfl
  have hawait : g'.awaitWithin g.nextId g'.patience = g' := awaitWithin_of_outcome (by simp [ho]) _
  simp only [respond, serve, hcall, hsubmit, Exchange.finish, collect, hawait, ho, Option.getD_some]

theorem respond_of_relays (hcall : r.call = .submit (.send (.ok payload)))
    (h : Relays g (g.submit .http .foreground (.send (.ok payload))).1 g.nextId payload) :
    (respond g r).2 = Response.ok (answerBody (.sent payload.length g.station.simulated)) ∧
      (respond g r).1.station.bench.script.transmitted =
        g.station.bench.script.transmitted ++ g.station.relays payload := by
  rw [respond_of_outcome hcall h.outcome]
  refine ⟨rfl, ?_⟩
  rw [(forget_keeps _ _).1]
  exact h.transmitted

/-- A document is relayed as its compact encoding, whichever of its texts was posted. The encoding
has all members in the order of the text; it is itself a text of the document, of which none is
shorter, so it is relayed octet for octet when it is posted in turn. Posted to a gateway at rest, in
simulation or with a scripted radio attached that accepts it, a document is answered with 200 and
the length of the encoding, which is what the scripted radio has transmitted. A send that comes at
any other moment, and whatever happens beside it, waits until it uses the radio, and if the radio
accepts it then, the same holds. -/
theorem document_relayed (hv : v.Built Value.Exact 127) (ht : v.IsText text)
    (hl : text.length ≤ bodyLimit) :
    let compact := Utf8.encode v.write
    (v.IsText compact ∧ compact.length ≤ text.length) ∧
    (∀ r : Request, r.Posts text ∨ r.Posts compact → r.call = .submit (.send (.ok compact))) ∧
    ∀ (backend : Station.Backend) (bench : Station.Bench) (capacity epoch : Nat)
      (moves : List Move),
      let g := (Gateway.start backend bench capacity epoch).through moves
      (∀ r : Request, r.Posts text ∨ r.Posts compact → g.AtRest → g.station.Accepts →
        let (g', response) := respond g r
        response = Response.ok (answerBody (.sent compact.length g.station.simulated)) ∧
          response.status = 200 ∧
          g'.station.bench.script.transmitted =
            g.station.bench.script.transmitted ++ g.station.relays compact) ∧
      ∀ (origin : Origin) (manner : Manner) (more : List Move),
        let arrived := g.after (.arrive origin manner (.send (.ok compact)))
        Sending (arrived.through more) g.nextId compact ∨
        ∃ before m rest, more = before ++ m :: rest ∧
          let g' := arrived.through before
          UsesRadio g.nextId compact g' m ∧
            (g'.station.Accepts → Relays g' (g'.after m) g.nextId compact) := by
  intro compact
  have hcompact : v.IsText compact := hv.isText_write
  have hle : compact.length ≤ text.length := ht.length_le
  have hcall : ∀ r : Request, r.Posts text ∨ r.Posts compact →
      r.call = .submit (.send (.ok compact)) := by
    rintro r (hr | hr)
    · exact call_of_isText hv ht hl hr
    · exact call_of_isText hv hcompact (Nat.le_trans hle hl) hr
  refine ⟨⟨hcompact, hle⟩, hcall, fun backend bench capacity epoch moves => ?_⟩
  intro g
  have ho : InOrder g := (inOrder_start backend bench capacity epoch).through moves
  refine ⟨fun r hr hrest ha => ?_, fun origin manner more => ?_⟩
  · obtain ⟨hresponse, hsent⟩ :=
      respond_of_relays (hcall r hr) (submit_at_rest ho hrest ha .http .foreground compact)
    exact ⟨hresponse, hresponse ▸ rfl, hsent⟩
  · intro arrived
    have hid : arrived.stage? g.nextId = some (.arrived (.send (.ok compact))) := by
      show (g.arrive origin manner _).stage? g.nextId = _
      rw [stage?_arrive g origin manner _ ho.stage?_next, Function.update_self]
    refine (sending_through (ho.after _) (.inl hid) more).imp_right ?_
    rintro ⟨before, m, rest, hmore, huses⟩
    obtain ⟨rfl, hp, hstage⟩ := huses
    exact ⟨before, _, rest, hmore, ⟨rfl, hp, hstage⟩, send_relays hp hstage⟩

/-- White space and escapes of the document go, and a scripted radio that was connected before has
sent the rest. -/
theorem document_relayed_compact :
    let text : List UInt8 := [0x20, 0x7B, 0x22, 0x69, 0x64, 0x22, 0x3A, 0x20, 0x5B, 0x22,
      0x5C, 0x75, 0x64, 0x38, 0x33, 0x44, 0x5C, 0x75, 0x44, 0x45, 0x30, 0x30, 0x22, 0x2C, 0x2D,
      0x37, 0x20, 0x5D, 0x7D]
    let r : Request := { method := "POST", target := "/api/lora/send", body := text }
    let moves : List Move := [.arrive .direct .background (.connect {}), .resume (.client 0),
      .resume (.client 0), .resume (.client 0)]
    let g :=
      (Gateway.start (.hardware .scripted)
        { board := { chip := Chip.fresh Chip.chipVersion } } 100 0).through moves
    (respond g r).1.station.bench.script.transmitted =
      [Utf8.ofString "\x7b\"id\":[\"😀\",-7]\x7d"] := by
  intro text r moves g
  let v : Value := .object [("id", .array [.string "😀", .integer (-7)])]
  have hv : v.Built Value.Exact 127 := by
    refine .object (by decide) (List.forall_mem_singleton.mpr ?_)
    refine .array (List.forall_mem_cons.mpr ⟨.atom trivial,
      List.forall_mem_singleton.mpr (.atom ?_)⟩)
    exact ⟨by decide, by decide⟩
  have hname : Value.Spelled (.string "id") [0x22, 0x69, 0x64, 0x22] :=
    .string (s := "id") <| .cons (.plain (c := 'i') (by decide) (by decide) (by decide)) <|
      .cons (.plain (c := 'd') (by decide) (by decide) (by decide)) .nil
  have hhigh : Json.UnitText 0xD83D [0x64, 0x38, 0x33, 0x44] :=
    .digits (w := 13) (x := 8) (y := 3) (z := 13) rfl rfl rfl rfl
  have hlow : Json.UnitText 0xDE00 [0x44, 0x45, 0x30, 0x30] :=
    .digits (w := 13) (x := 14) (y := 0) (z := 0) rfl rfl rfl rfl
  have hface : Value.Spelled (.string "😀")
      [0x22, 0x5C, 0x75, 0x64, 0x38, 0x33, 0x44, 0x5C, 0x75, 0x44, 0x45, 0x30, 0x30, 0x22] :=
    .string (s := "😀") <| .cons (.pair (c := '😀') (by decide) hhigh hlow) .nil
  have hnumber : Value.Spelled (.integer (-7)) [0x2D, 0x37] := .integer (-7)
  have hnone : Json.Blank [] := by decide
  have hspace : Json.Blank [0x20] := by decide
  have ht : v.IsText text :=
    .mark hspace <| .atom hnone hname <| .mark hnone <| .mark hspace <| .atom hnone hface <|
      .mark hnone <| .atom hnone hnumber <| .mark hspace <| .mark hnone <| .nil hnone
  have hr : r.Posts text := ⟨rfl, by decide, rfl⟩
  have hrest : g.AtRest := ⟨by decide +kernel, by decide +kernel, by decide +kernel⟩
  have ha : g.station.Accepts := .inr ⟨by decide +kernel, by decide +kernel, by decide +kernel⟩
  obtain ⟨-, -, hrun⟩ := document_relayed hv ht (by decide)
  obtain ⟨-, -, hsent⟩ :=
    (hrun (.hardware .scripted)
      { board := { chip := Chip.fresh Chip.chipVersion } } 100 0 moves).1 r (.inl hr) hrest ha
  refine hsent.trans ?_
  decide +kernel

end Http

end RadioGateway
