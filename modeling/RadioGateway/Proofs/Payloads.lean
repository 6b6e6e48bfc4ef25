import RadioGateway.Proofs.Accounting
import RadioGateway.Proofs.Rereading

/-!
# Payloads come through unchanged

What a receive loop is handed passes two codecs before a client has it: it must be text, and it is
quoted in a document. Both are undone by a client that reads the document, so the client has the
octets that were on the air. What is no text is refused, and the refusal shows all of it.
-/

namespace RadioGateway.Gateway

open RadioGateway.Radio (Frame)
open RadioGateway.Station (Effect Heard Listening Progress)
open RadioGateway.Text

-- ---------------------------------------------------------------------------
-- What is received
-- ---------------------------------------------------------------------------

/-- The frame that listening ended with. -/
def heardIn (e : Effect Station (Progress Listening Heard)) : List Frame :=
  match e.result with
  | .finished (.ok (some f)) => [f]
  | _ => []

/-- The test packet of a simulated radio, as a frame. -/
def syntheticFrame : Frame :=
  { data := Utf8.ofString (Packet.synthetic 0).data, signal := (Packet.synthetic 0).signal }

/-- What a receive loop gets when it goes on. -/
def receivedBy (g : Gateway) (id : Nat) : List Frame :=
  match (g.listener? id).map Listener.stage with
  | some .simulating => [syntheticFrame]
  | some (.waitingRadio _ slice) => (g.station.beginListen slice).elim [] heardIn
  | some (.listening _ l) => (g.station.resumeListen l).elim [] heardIn
  | _ => []

def received (g : Gateway) : Move → List Frame
  | .resume (.listener id) => if g.goes (.listener id) then g.receivedBy id else []
  | _ => []

def Inbox.acceptAll (i : Inbox) (timestamp : Float) (frames : List Frame) : Inbox :=
  frames.foldl (fun i f => (i.accept f timestamp).1) i

theorem accept_syntheticFrame (i : Inbox) (timestamp : Float) :
    (i.accept syntheticFrame timestamp).1 = (i.acceptSynthetic timestamp).1 := by
  have hpacket : Packet.ofFrame syntheticFrame timestamp = .ok (.synthetic timestamp) := by
    simp only [Packet.ofFrame, syntheticFrame, Utf8.ofString, Utf8.decode_encode,
      String.ofList_toList]
    rfl
  simp only [Inbox.accept, hpacket, Inbox.acceptSynthetic]

variable {g g' : Gateway}

theorem inbox_progressListen (g : Gateway) (id : Nat) (t : Timing) (deadline : Nat)
    (e : Effect Station (Progress Listening Heard)) :
    (g.progressListen id t deadline e).inbox = g.inbox.acceptAll g.timestamp (heardIn e) := by
  obtain ⟨s, log, result⟩ := e
  cases result with
  | paused ms l => simp [progressListen, heardIn, Inbox.acceptAll]
  | finished r =>
    rcases r with (_ | _) | (_ | f)
    · simp [progressListen, heard, heardIn, Inbox.acceptAll]
    · simp [progressListen, heard, heardIn, Inbox.acceptAll]
    · simp [progressListen, heard, heardIn, Inbox.acceptAll]
    · simp [progressListen, heard, heardIn, Inbox.acceptAll, timestamp]

theorem inbox_resumeListener (g : Gateway) (id : Nat) :
    (g.resumeListener id).inbox = g.inbox.acceptAll g.timestamp (g.receivedBy id) := by
  unfold resumeListener receivedBy
  cases hid : g.listener? id with
  | none => rfl
  | some l =>
    obtain ⟨t, stage⟩ := l
    simp only [Option.map_some]
    cases stage with
    | proceeding deadline => cases deadline <;> simp [Inbox.acceptAll]
    | simulating => simp [Inbox.acceptAll, accept_syntheticFrame]
    | waitingRadio deadline slice =>
      simp only [listenSlice]
      cases g.station.beginListen slice with
      | some e => exact inbox_progressListen g id t deadline e
      | none => simp [Inbox.acceptAll]
    | listening deadline l =>
      simp only
      cases g.station.resumeListen l with
      | some e => exact inbox_progressListen g id t deadline e
      | none => simp [Inbox.acceptAll]
    | starting | idle | backingOff | crashed | restarting => simp [Inbox.acceptAll]

/-- As long as nobody polls the buffer gets what is received, and nothing else happens to it. -/
theorem buffer_after (g : Gateway) {m : Move} (hm : m ≠ .poll) :
    (g.after m).inbox.buffer = (g.inbox.acceptAll g.timestamp (received g m)).buffer := by
  cases m with
  | resume p =>
    cases hp : g.goes p with
    | false =>
      rw [after_resume_of_not_goes hp]
      cases p <;> simp [received, hp, Inbox.acceptAll]
    | true =>
      rw [after_resume hp]
      cases p with
      | listener id =>
        have hby : (g.depart (.listener id)).receivedBy id = g.receivedBy id := by simp [receivedBy]
        have hts : (g.depart (.listener id)).timestamp = g.timestamp := by simp [timestamp]
        simp only [resume, inbox_resumeListener, hby, hts, received, hp, if_true]
        simp
      | client id =>
        obtain h | h := (sends_resumeClient (g.depart (.client id)) id).inbox
        · simp only [resume, h]
          simp [received, Inbox.acceptAll]
        · simp only [resume, h]
          simp [received, Inbox.acceptAll]
  | poll => exact absurd rfl hm
  | forget id =>
    simp only [after]
    split <;> rfl
  | arrive | enlist | dismiss => simp [after, received, Inbox.acceptAll]
  | elapse | stimulate | relog => rfl

-- ---------------------------------------------------------------------------
-- What is kept of it
-- ---------------------------------------------------------------------------

def texts (frames : List Frame) : List Frame := frames.filter fun f => Utf8.WellFormed f.data

/-- The packet has the payload of the frame, as text, and its signal. -/
def Carries (f : Frame) (p : Packet) : Prop := Utf8.ofString p.data = f.data ∧ p.signal = f.signal

/-- The reason ends with the payload. -/
theorem decodeReason_eq (payload : List UInt8) (e : Utf8.DecodeError) : ∃ before,
    decodeReason payload e = before ++ ("(payload " ++ String.ofList (hex payload) ++ ")") := by
  have hmark : " (payload " = " " ++ "(payload " := rfl
  unfold decodeReason
  rw [hmark]
  generalize String.ofList (hex payload) = octets
  generalize "(payload " = mark
  simp only
  split <;> exact ⟨_, by simp only [← String.append_assoc]; rfl⟩

section Accept

variable {i : Inbox} {f : Frame} (timestamp : Float)

theorem ofFrame_text (h : Utf8.WellFormed f.data) :
    ∃ p, Packet.ofFrame f timestamp = .ok p ∧ Carries f p := by
  obtain ⟨cs, hcs⟩ := Utf8.wellFormed_iff.mp h
  refine ⟨⟨String.ofList cs, f.signal, timestamp⟩, ?_, ?_, rfl⟩
  · simp only [Packet.ofFrame, Utf8.decode_eq_ok_iff.mpr hcs]
  · rw [Utf8.ofString, String.toList_ofList, hcs]

/-- What is no text is refused, and the refusal ends with all of it. -/
theorem ofFrame_garbled (h : ¬Utf8.WellFormed f.data) : ∃ reason before,
    Packet.ofFrame f timestamp = .error (.decode reason) ∧
      (GatewayError.decode reason).message = before ++
        ("(payload " ++ String.ofList (hex f.data) ++ ")") := by
  cases hd : Utf8.decode f.data with
  | ok cs => exact absurd (Utf8.wellFormed_iff.mpr ⟨cs, Utf8.decode_eq_ok_iff.mp hd⟩) h
  | error e =>
    obtain ⟨before, hreason⟩ := decodeReason_eq f.data e
    obtain ⟨front, hmessage⟩ : ∃ front, ∀ reason,
        (GatewayError.decode reason).message = front ++ reason :=
      ⟨_, fun _ => rfl⟩
    refine ⟨decodeReason f.data e, front ++ before, ?_, ?_⟩
    · simp only [Packet.ofFrame, hd]
    · rw [hmessage, hreason, ← String.append_assoc]

theorem packets_accept (h : Utf8.WellFormed f.data) (hroom : i.packets.length < i.buffer.capacity) :
    ∃ p, Carries f p ∧ (i.accept f timestamp).1.packets = i.packets ++ [p] := by
  obtain ⟨p, hp, hcarries⟩ := ofFrame_text timestamp h
  have hqueues := i.publish_queues p
  rw [if_pos hroom] at hqueues
  exact ⟨p, hcarries, by simp only [Inbox.accept, hp]; exact hqueues.1⟩

theorem packets_accept_of_garbled (h : ¬Utf8.WellFormed f.data) :
    (i.accept f timestamp).1.packets = i.packets := by
  obtain ⟨reason, -, hp, -⟩ := ofFrame_garbled timestamp h
  simp only [Inbox.accept, hp]
  rfl

theorem capacity_accept : (i.accept f timestamp).1.buffer.capacity = i.buffer.capacity := by
  unfold Inbox.accept
  split
  · rw [Inbox.buffer_publish, Buffer.capacity_push]
  · rfl

end Accept

/-- The buffer has the texts of what was received, in order. -/
structure Holds (i : Inbox) (capacity : Nat) (frames : List Frame) : Prop where
  capacity : i.buffer.capacity = capacity
  packets : List.Forall₂ Carries (texts frames) i.packets

theorem Holds.accept {i : Inbox} {capacity : Nat} {frames : List Frame}
    (h : Holds i capacity frames) (f : Frame) (timestamp : Float)
    (hroom : (texts (frames ++ [f])).length ≤ capacity) :
    Holds (i.accept f timestamp).1 capacity (frames ++ [f]) := by
  refine ⟨(capacity_accept timestamp).trans h.capacity, ?_⟩
  by_cases hf : Utf8.WellFormed f.data
  · have htexts : texts (frames ++ [f]) = texts frames ++ [f] := by simp [texts, hf]
    have hlength := h.packets.length_eq
    rw [htexts, List.length_append, List.length_singleton] at hroom
    obtain ⟨p, hp, hpackets⟩ := packets_accept timestamp hf (by rw [h.capacity]; omega)
    rw [htexts, hpackets]
    exact List.rel_append h.packets (.cons hp .nil)
  · have htexts : texts (frames ++ [f]) = texts frames := by simp [texts, hf]
    rw [htexts, packets_accept_of_garbled timestamp hf]
    exact h.packets

theorem length_texts_append_le (frames more : List Frame) :
    (texts frames).length ≤ (texts (frames ++ more)).length := by
  rw [texts, texts, List.filter_append, List.length_append]
  exact Nat.le_add_right _ _

theorem Holds.acceptAll {i : Inbox} {capacity : Nat} {frames : List Frame}
    (h : Holds i capacity frames) (timestamp : Float) (more : List Frame)
    (hroom : (texts (frames ++ more)).length ≤ capacity) :
    Holds (i.acceptAll timestamp more) capacity (frames ++ more) := by
  induction more generalizing i frames with
  | nil => rwa [List.append_nil]
  | cons f more ih =>
    have hsplit : frames ++ f :: more = frames ++ [f] ++ more := by rw [List.append_assoc]; rfl
    rw [hsplit] at hroom ⊢
    exact ih (h.accept f timestamp (Nat.le_trans (length_texts_append_le _ more) hroom)) hroom

theorem Holds.of_buffer {i i' : Inbox} {capacity : Nat} {frames : List Frame}
    (h : Holds i capacity frames) (hb : i'.buffer = i.buffer) : Holds i' capacity frames :=
  ⟨hb ▸ h.capacity, by rw [Inbox.packets, hb]; exact h.packets⟩

/-- From an empty buffer on, as long as nobody polls and there is room. -/
theorem holds_through {g : Gateway} (hempty : g.inbox.packets = []) {moves : List Move}
    (hpoll : .poll ∉ moves)
    (hroom : (texts (history received g moves)).length ≤ g.inbox.buffer.capacity) :
    Holds (g.through moves).inbox g.inbox.buffer.capacity (history received g moves) := by
  induction moves using List.reverseRecOn with
  | nil => exact ⟨rfl, hempty ▸ .nil⟩
  | append_singleton moves m ih =>
    rw [List.mem_append, List.mem_singleton, not_or] at hpoll
    rw [history_snoc] at hroom ⊢
    have hbefore := ih hpoll.1 (Nat.le_trans (length_texts_append_le _ _) hroom)
    rw [through_snoc]
    exact (hbefore.acceptAll _ _ hroom).of_buffer (buffer_after _ (Ne.symm hpoll.2))

end RadioGateway.Gateway

namespace RadioGateway.Http

open RadioGateway.Gateway
open RadioGateway.Json (Value)
open RadioGateway.Radio (Frame)
open RadioGateway.Text

-- ---------------------------------------------------------------------------
-- What a client reads
-- ---------------------------------------------------------------------------

/-- Nothing is shown for a measurement that is missing or is no finite number, and a number for any
other. -/
def Measures (x : Option Float) (v : Value) : Prop :=
  (v = .null ↔ ∀ y ∈ x, y.isFinite = false) ∧ (v = .null ∨ ∃ y, v = .real y)

/-- An object with the payload as text, the measurements and a time. -/
inductive Shows (f : Frame) : Value → Prop
  | object {data : String} {rssi snr timestamp : Value} {time : Float}
      (hd : Utf8.ofString data = f.data) (hr : Measures f.signal.rssi rssi)
      (hs : Measures f.signal.snr snr) (ht : Measures (some time) timestamp) :
      Shows f (.object [("data", .string data), ("rssi", rssi), ("snr", snr),
        ("timestamp", timestamp)])

theorem measures_again (x : Option Float) : Measures x (optionalReal x).again := by
  cases x with
  | none => exact ⟨⟨fun _ => nofun, fun _ => rfl⟩, .inl rfl⟩
  | some x =>
    simp only [optionalReal, Value.again, Measures]
    cases hx : x.isFinite with
    | false =>
      rw [Json.realAgain_of_not_finite hx]
      exact ⟨⟨fun _ y hy => Option.some.inj hy ▸ hx, fun _ => rfl⟩, .inl rfl⟩
    | true =>
      obtain ⟨y, hy, -⟩ := Json.realAgain_of_finite hx
      rw [hy]
      refine ⟨⟨nofun, fun h => ?_⟩, .inr ⟨y, rfl⟩⟩
      exact absurd (hx.symm.trans (h x rfl)) nofun

theorem shows_again {f : Frame} {p : Packet} (h : Carries f p) : Shows f p.toJson.again := by
  have hr := measures_again p.signal.rssi
  have hs := measures_again p.signal.snr
  rw [h.2] at hr hs
  have hagain : p.toJson.again = .object [("data", .string p.data),
      ("rssi", (optionalReal p.signal.rssi).again), ("snr", (optionalReal p.signal.snr).again),
      ("timestamp", (optionalReal (some p.timestamp)).again)] := rfl
  rw [hagain, h.2]
  exact .object h.1 hr hs (measures_again _)

theorem built_packet (p : Packet) : p.toJson.Built Value.Writable 126 := by
  have hreal (x : Option Float) : (optionalReal x).Writable := by
    cases x with
    | none => exact .inl trivial
    | some x => exact .inr ⟨x, rfl⟩
  refine .object (show ["data", "rssi", "snr", "timestamp"].Nodup by decide) ?_
  simp only [List.forall_mem_cons]
  exact ⟨.atom (.inl trivial), .atom (hreal _), .atom (hreal _),
    .atom (.inr ⟨p.timestamp, rfl⟩), nofun⟩

theorem read_packetsBody (packets : List Packet) :
    Json.read (Utf8.ofString (packetsBody packets).render) =
    .ok (.array (packets.map fun p => p.toJson.again)) := by
  have hbuilt : (packetsBody packets).Built Value.Writable 127 :=
    .array (List.forall_mem_map.mpr fun p _ => built_packet p)
  rw [Value.render, Utf8.ofString, String.toList_ofList, hbuilt.read_write]
  simp only [packetsBody, Value.again, Json.itemsAgain_eq, List.map_map]
  rfl

theorem respond_of_poll {r : Request} (hm : r.method = "GET") (hp : r.path = Endpoint.poll.path)
    (g : Gateway) : (respond g r).2 = .ok (packetsBody g.inbox.packets) := by
  have hcall : r.call = .poll := Request.call_eq_poll.mpr ⟨hp, .inl hm⟩
  simp only [respond, serve, hcall, Exchange.finish, hm, Response.forMethod]
  rfl

/-- Payloads come through to a client that polls unchanged. Whatever goes on from a state with an
empty buffer, as long as nobody polls: if there is room for the frames that are text, the response
to the next poll is a document with an object for each of them, in order. Its text is the payload,
octet for octet, and a measurement is missing from it exactly if the frame has none or one that is
no finite number. A frame that is no text is refused, and the refusal ends with all of its
payload. -/
theorem payloads_polled {g₀ : Gateway} (hempty : g₀.inbox.packets = []) {moves : List Move}
    (hpoll : .poll ∉ moves) {r : Request} (hmethod : r.method = "GET")
    (hpath : r.path = Endpoint.poll.path) :
    let frames := history received g₀ moves
    let texts := frames.filter fun f => Utf8.WellFormed f.data
    let response := (respond (g₀.through moves) r).2
    (texts.length ≤ g₀.inbox.buffer.capacity →
      response.status = 200 ∧
        ∃ objects, Json.read (Utf8.ofString response.body) = .ok (.array objects) ∧
          List.Forall₂ Shows texts objects) ∧
    ∀ f : Frame, ¬Utf8.WellFormed f.data → ∀ timestamp, ∃ reason before,
      Packet.ofFrame f timestamp = .error (.decode reason) ∧
        (GatewayError.decode reason).message = before ++
          ("(payload " ++ String.ofList (hex f.data) ++ ")") := by
  intro frames texts response
  refine ⟨fun hroom => ?_, fun f hgarbled timestamp => ofFrame_garbled timestamp hgarbled⟩
  have hholds := holds_through hempty hpoll hroom
  have hresponse : response = .ok (packetsBody (g₀.through moves).inbox.packets) :=
    respond_of_poll hmethod hpath _
  rw [hresponse]
  refine ⟨rfl, _, read_packetsBody _, ?_⟩
  exact List.forall₂_map_right_iff.mpr (hholds.packets.imp fun _ _ => shows_again)

/-- A quote, a backslash, a zero and characters outside ASCII come through, and so does an empty
payload; a surrogate in between is refused. -/
theorem payloads_polled_escaped :
    let escaped := Utf8.ofString "\"\\\x00é😀"
    let surrogate : List UInt8 := [0x48, 0xED, 0xA0, 0x80]
    let bench : Station.Bench :=
      { script := { inbound :=
          [.frame ⟨escaped, { rssi := some (-90.5) }⟩, .frame ⟨surrogate, {}⟩, .frame ⟨[], {}⟩] }
        board := { chip := Chip.fresh Chip.chipVersion } }
    let moves :=
      [.arrive .direct .background (.connect {}), .resume (.client 0), .resume (.client 0),
        .resume (.client 0), .enlist {}] ++ List.replicate 12 (.resume (.listener 1))
    let g₀ := Gateway.start (.hardware .scripted) bench 2 0
    let texts := (history received g₀ moves).filter fun f => Utf8.WellFormed f.data
    let response := (respond (g₀.through moves) { method := "GET", target := "/api/lora/poll" }).2
    (history received g₀ moves).map Frame.data = [escaped, surrogate, []] ∧
      texts.map Frame.data = [escaped, []] ∧
      (∃ objects, Json.read (Utf8.ofString response.body) = .ok (.array objects) ∧
        List.Forall₂ Shows texts objects) ∧
      ∃ reason before, Packet.ofFrame ⟨surrogate, {}⟩ 0 = .error (.decode reason) ∧
        (GatewayError.decode reason).message = before ++ ("(payload " ++ "48eda080" ++ ")") := by
  intro escaped surrogate bench moves g₀ texts response
  have hpoll : .poll ∉ moves := by simp [moves]
  have htexts : texts.map Frame.data = [escaped, []] := by decide +kernel
  have hroom : texts.length ≤ g₀.inbox.buffer.capacity := by
    rw [← List.length_map Frame.data, htexts]
    decide
  have hall := payloads_polled (show g₀.inbox.packets = [] from rfl) hpoll
    (show ({ method := "GET", target := "/api/lora/poll" } : Request).method = "GET" from rfl)
    (by decide)
  exact ⟨by decide +kernel, htexts, (hall.1 hroom).2, hall.2 ⟨surrogate, {}⟩ (by decide) 0⟩

end RadioGateway.Http
