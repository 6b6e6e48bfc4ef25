import RadioGateway.Proofs.Alike
import RadioGateway.Proofs.ConnectBodies
import RadioGateway.Proofs.Documents
import RadioGateway.Proofs.Polling

/-!
# What a request does

A request either names an operation of the gateway and does the same as the operation would, at once
and in whatever happens later, or it does nothing. What is answered says which of the two it was.
-/

namespace RadioGateway.Http

open RadioGateway.Gateway
open RadioGateway.Decimal (Worth)
open RadioGateway.Json (MemberText MembersText NameText NumberOf RecordText TextOf Value)
open RadioGateway.Radio (Update)
open RadioGateway.Text

variable {g : Gateway} {manner : Manner} {r : Request} {op : Gateway.Request}

-- ---------------------------------------------------------------------------
-- The operation that is named
-- ---------------------------------------------------------------------------

/-- A post to a path, with a body within the limit of two mebibytes. -/
structure Request.PostsTo (r : Request) (path : String) : Prop where
  method : r.method = "POST"
  path : r.path = path
  limit : r.body.length ≤ 2097152

/-- The operation that a request names. All operations are posted; a body that one takes has to be
within the limit and to have a meaning. -/
inductive Request.Names (r : Request) : Gateway.Request → Prop
  | connect {u : Update} (h : r.PostsTo "/api/lora/connect") (hb : ConnectRequest.Asks r.body u) :
      Names r (.connect u)
  | disconnect (hm : r.method = "POST") (hp : r.path = "/api/lora/disconnect") : Names r .disconnect
  | send {v : Value} (h : r.PostsTo "/api/lora/send") (hb : Json.DocumentText v r.body) :
      Names r (.send (.ok (Utf8.encode v.write)))

/-- What is wrong with the body of a request that would otherwise name an operation. A body to be
sent can only be no text of a document; what is said about it is what the reader finds. -/
inductive Request.Faulty (r : Request) : GatewayError → Prop
  | connect {e : GatewayError} (h : r.PostsTo "/api/lora/connect")
      (hb : ConnectRequest.Refused r.body e) : Faulty r e
  | send {e : Json.Error} (h : r.PostsTo "/api/lora/send") (hn : ∀ v, ¬Json.DocumentText v r.body)
      (hb : Json.read r.body = .error e) : Faulty r (.serialization e.message)

theorem Request.call_of_post {e : Endpoint} (he : e.methods = ["POST"]) (hm : r.method = "POST")
    (hp : r.path = e.path) : r.call = e.call r.body := by
  have hfind : Endpoint.find? e.path = some e := Endpoint.find?_eq_some.mpr rfl
  simp only [Request.call, hp, hfind, hm, he]
  rfl

theorem Request.PostsTo.call_connect (h : r.PostsTo "/api/lora/connect") :
    r.call = match ConnectRequest.ofBody r.body with
      | .ok u => .submit (.connect u)
      | .error e => .failed e := by
  rw [Request.call_of_post (e := .connect) rfl h.method h.path]
  exact if_neg (Nat.not_lt.mpr h.limit)

theorem Request.PostsTo.call_send (h : r.PostsTo "/api/lora/send") :
    r.call = Call.ofDocument r.body := by
  rw [Request.call_of_post (e := .send) rfl h.method h.path]
  exact if_neg (Nat.not_lt.mpr h.limit)

theorem Request.Names.call (h : r.Names op) : r.call = .submit op := by
  cases h with
  | connect h hb => rw [h.call_connect, ConnectRequest.ofBody_eq_ok_iff.mpr hb]
  | disconnect hm hp => exact Request.call_of_post (e := .disconnect) rfl hm hp
  | send h hb => rw [h.call_send, Call.ofDocument, Json.read_eq_ok_iff.mpr hb]

theorem Request.Faulty.call {e : GatewayError} (h : r.Faulty e) : r.call = .failed e := by
  cases h with
  | connect h hb => rw [h.call_connect, ConnectRequest.ofBody_eq_error_iff.mpr hb]
  | send h _ hb => rw [h.call_send, Call.ofDocument, hb]

/-- A connect or a send names an operation, or its body is faulty. -/
theorem Request.names_or_faulty (h : r.PostsTo "/api/lora/connect" ∨ r.PostsTo "/api/lora/send") :
    (∃ op, r.Names op) ∨ ∃ e, r.Faulty e := by
  obtain h | h := h
  · cases hb : ConnectRequest.ofBody r.body with
    | ok u => exact .inl ⟨_, .connect h (ConnectRequest.ofBody_eq_ok_iff.mp hb)⟩
    | error e => exact .inr ⟨_, .connect h (ConnectRequest.ofBody_eq_error_iff.mp hb)⟩
  · cases hb : Json.read r.body with
    | ok v => exact .inl ⟨_, .send h (Json.read_eq_ok_iff.mp hb)⟩
    | error e =>
      refine .inr ⟨_, .send h (fun v hv => ?_) hb⟩
      cases hb.symm.trans (Json.read_eq_ok_iff.mpr hv)

/-- A request that concerns the gateway is read by the endpoint that has its path. -/
theorem Request.exists_endpoint (h : ∀ response, r.call ≠ .answered response) :
    ∃ e : Endpoint, r.path = e.path ∧ r.method ∈ e.methods ∧ r.call = e.call r.body := by
  unfold Request.call at h ⊢
  simp only at h ⊢
  split at h
  · exact absurd rfl (h _)
  · rename_i hoptions
    rw [if_neg hoptions]
    split at h
    · exact absurd rfl (h _)
    · rename_i e hfind
      split at h
      · rename_i hmethod
        exact ⟨e, (Endpoint.find?_eq_some.mp hfind).symm,
          List.contains_iff_mem.mp hmethod, if_pos hmethod⟩
      · exact absurd rfl (h _)

theorem Request.names_of_call (h : r.call = .submit op) : r.Names op := by
  have hposts {path : String} (hp : path = "/api/lora/connect" ∨ path = "/api/lora/send")
      (hposts : r.PostsTo path) : r.Names op := by
    have hposts : r.PostsTo "/api/lora/connect" ∨ r.PostsTo "/api/lora/send" := by
      obtain rfl | rfl := hp
      · exact .inl hposts
      · exact .inr hposts
    obtain ⟨op', hop⟩ | ⟨e, he⟩ := Request.names_or_faulty hposts
    · exact Call.submit.inj (h.symm.trans hop.call) ▸ hop
    · cases h.symm.trans he.call
  obtain ⟨e, hp, hm, hcall⟩ := Request.exists_endpoint fun response hr => by cases h.symm.trans hr
  rw [hcall] at h
  have hlimit {read : List UInt8 → Call} (h : Call.ofBody r.body read = .submit op) :
      r.body.length ≤ 2097152 := by
    refine Nat.not_lt.mp fun (hlong : bodyLimit < r.body.length) => ?_
    rw [Call.ofBody, if_pos hlong] at h
    cases h
  cases e with
  | poll | stats | health => cases h
  | disconnect =>
    obtain rfl := Call.submit.inj h
    exact .disconnect (List.mem_singleton.mp hm) hp
  | connect =>
    rw [Endpoint.call] at h
    exact hposts (.inl rfl) ⟨List.mem_singleton.mp hm, hp, hlimit h⟩
  | send => exact hposts (.inr rfl) ⟨List.mem_singleton.mp hm, hp, hlimit h⟩

-- ---------------------------------------------------------------------------
-- What is answered
-- ---------------------------------------------------------------------------

structure Response.Succeeds (response : Response) : Prop where
  status : response.status = 200
  body : ∃ members, response.body = (Value.object (("success", .bool true) :: members)).render

structure Response.Fails (response : Response) (message : String) : Prop where
  status : response.status = 500
  body : Json.read (Utf8.ofString response.body) =
    .ok (.object [("success", .bool false), ("error", .string message)])

theorem Response.succeeds_ok (answer : Answer) : (Response.ok (answerBody answer)).Succeeds := by
  refine ⟨rfl, ?_⟩
  cases answer with
  | connected device config => exact ⟨_, rfl⟩
  | disconnected => exact ⟨_, rfl⟩
  | sent length simulated => exact ⟨_, rfl⟩

theorem Response.fails_failure (e : GatewayError) : (Response.failure e).Fails e.message := by
  refine ⟨rfl, ?_⟩
  have hbuilt : (failureBody e).Built Value.Exact 127 := by
    refine .object (show ["success", "error"].Nodup by decide) ?_
    simp only [List.mem_cons, List.not_mem_nil, or_false]
    rintro m (rfl | rfl)
    · exact .atom trivial
    · exact .atom trivial
  show Json.read (Utf8.ofString (failureBody e).render) = .ok (failureBody e)
  rw [Value.render, Utf8.ofString, String.toList_ofList]
  exact hbuilt.read_of_isText hbuilt.isText_write

-- ---------------------------------------------------------------------------
-- What is done
-- ---------------------------------------------------------------------------

theorem serve_of_names (h : r.Names op) (g : Gateway) (manner : Manner) :
    serve g manner r = ((g.submit .http manner op).1, .pending g.nextId) := by
  simp only [serve, h.call]
  rfl

/-- A request that names nothing is answered at once, and nothing but the log has changed. -/
theorem serve_of_not_names (hp : r.path ≠ "/api/lora/poll") (h : ∀ op, ¬r.Names op) (g : Gateway)
    (manner : Manner) : ∃ events response, serve g manner r = (g.note events,
      .answered response) := by
  cases hcall : r.call with
  | submit op => exact absurd (Request.names_of_call hcall) (h op)
  | poll => exact absurd (Request.call_eq_poll.mp hcall).1 hp
  | stats => exact ⟨[], _, by simp only [serve, hcall]; rfl⟩
  | health => exact ⟨[], _, by simp only [serve, hcall]; rfl⟩
  | failed e => exact ⟨[.requestFailed e], .failure e, by simp only [serve, hcall]⟩
  | answered response => exact ⟨[], response, by simp only [serve, hcall]; rfl⟩

/-- Waiting for the outcome of a request comes to the same wherever the request came from. -/
theorem finish_pending {g' : Gateway} {id : Nat} (h : Alike id g g') :
    Agrees ((Exchange.pending id).finish g).1 (g'.collect id).1 ∧
    ((Exchange.pending id).finish g).2 =
      .ofOutcome ((g'.collect id).2.getD (.error (.driver .notConnected))) := by
  obtain ⟨hagrees, houtcome⟩ := h.collect
  refine ⟨hagrees, ?_⟩
  rw [← houtcome]
  rfl

/-- A request performs the operation that it names, or nothing. Whatever the gateway is at and
whatever else happens to it, a request that names an operation leaves it at any later moment as the
operation would, but for reports of failure in the log; so does the wait for the outcome, which is
what is answered. Any other request, unless it polls, is answered at once and changes nothing but
the log. A connect whose body is blank, is `null`, or is an object that sets no field names the
connect that changes no setting. A connect or a send with a body within the limit names an operation
or is faulty, never both. It is answered with 200 and a success where the operation succeeds, and
otherwise with 500 and a failure, which says what is wrong with the body or with the operation. -/
theorem requests_operate (g : Gateway) (manner : Manner) (r : Request) (moves : List Move)
    (hr : r.path ≠ "/api/lora/poll") :
    let taken := (serve g manner r).1
    let exchange := (serve g manner r).2
    let answered := exchange.finish (taken.through moves)
    let direct (op : Gateway.Request) := (g.submit .direct manner op).1.through moves
    let outcome (op : Gateway.Request) := ((direct op).collect g.nextId).2
    (∀ op, r.Names op →
      exchange = .pending g.nextId ∧ Alike g.nextId (taken.through moves) (direct op) ∧
      Agrees answered.1 ((direct op).collect g.nextId).1 ∧
      answered.2 = .ofOutcome ((outcome op).getD (.error (.driver .notConnected)))) ∧
    ((∀ op, ¬r.Names op) → exchange = .answered answered.2 ∧ ∃ events, taken = g.note events) ∧
    (r.PostsTo "/api/lora/connect" → ConnectRequest.AsksNothing r.body → r.Names (.connect {})) ∧
    (r.PostsTo "/api/lora/connect" ∨ r.PostsTo "/api/lora/send" →
      ((∃ op, r.Names op) ∨ ∃ e, r.Faulty e) ∧
      (∀ op answer, r.Names op → outcome op = some (.ok answer) → answered.2.Succeeds) ∧
      ((∀ op answer, r.Names op → outcome op ≠ some (.ok answer)) → ∃ message,
        answered.2.Fails message) ∧
      (∀ op e, r.Names op → outcome op = some (.error e) → answered.2.Fails e.message) ∧
      ∀ e, r.Faulty e → (∀ op, ¬r.Names op) ∧ answered.2.Fails e.message) := by
  intro taken exchange answered direct outcome
  have hnamed (op) (h : r.Names op) : exchange = .pending g.nextId ∧
      Alike g.nextId (taken.through moves) (direct op) ∧
      Agrees answered.1 ((direct op).collect g.nextId).1 ∧
      answered.2 = .ofOutcome ((outcome op).getD (.error (.driver .notConnected))) := by
    have hserve := serve_of_names h g manner
    have halike : Alike g.nextId (taken.through moves) (direct op) := by
      simp only [taken, hserve]
      exact (alike_submit g .http .direct manner op).through moves
    have hexchange : exchange = .pending g.nextId := congrArg Prod.snd hserve
    refine ⟨hexchange, halike, ?_⟩
    simp only [answered, hexchange]
    exact finish_pending halike
  have hok (op answer) (h : r.Names op) (ho : outcome op = some (.ok answer)) :
      answered.2.Succeeds := by
    obtain ⟨-, -, -, hresponse⟩ := hnamed op h
    rw [hresponse, ho]
    exact Response.succeeds_ok answer
  have herror (op e) (h : r.Names op) (ho : outcome op = some (.error e)) :
      answered.2.Fails e.message := by
    obtain ⟨-, -, -, hresponse⟩ := hnamed op h
    rw [hresponse, ho]
    exact Response.fails_failure e
  have hfaulty (e) (h : r.Faulty e) : (∀ op, ¬r.Names op) ∧ answered.2.Fails e.message := by
    have hfailed : answered.2 = .failure e := by
      simp only [answered, exchange, taken, serve, h.call]
      rfl
    refine ⟨fun op hop => ?_, ?_⟩
    · cases h.call.symm.trans hop.call
    · rw [hfailed]
      exact Response.fails_failure e
  refine ⟨hnamed, fun h => ?_, fun h hb => ?_,
    fun h => ⟨Request.names_or_faulty h, hok, fun hnone => ?_, herror, hfaulty⟩⟩
  · obtain ⟨events, response, hserve⟩ := serve_of_not_names hr h g manner
    simp only [answered, exchange, taken, hserve]
    exact ⟨rfl, events, rfl⟩
  · exact .connect h (ConnectRequest.asks_empty hb)
  · obtain ⟨op, hop⟩ | ⟨e, he⟩ := Request.names_or_faulty h
    · cases ho : outcome op with
      | none =>
        obtain ⟨-, -, -, hresponse⟩ := hnamed op hop
        rw [hresponse, ho]
        exact ⟨_, Response.fails_failure _⟩
      | some outcome =>
        obtain e | answer := outcome
        · exact ⟨_, herror op e hop ho⟩
        · exact absurd ho (hnone op answer hop)
    · exact ⟨_, (hfaulty e he).2⟩

/-- Fields that fit are set, whatever else there is in the body, and one that does not fit is
named. -/
theorem fields_set_or_refused :
    let fitting : List UInt8 :=
      [0x7B, 0x22, 0x69, 0x64, 0x22, 0x3A, 0x20, 0x5B, 0x31, 0x65, 0x39, 0x39, 0x39, 0x2C, 0x20,
        0x22, 0x5C, 0x75, 0x64, 0x38, 0x30, 0x30, 0x22, 0x5D, 0x2C, 0x20, 0x22, 0x73, 0x70, 0x72,
        0x65, 0x61, 0x64, 0x69, 0x6E, 0x67, 0x46, 0x61, 0x63, 0x74, 0x6F, 0x72, 0x22, 0x3A, 0x20,
        0x39, 0x2E, 0x30, 0x2C, 0x20, 0x22, 0x74, 0x78, 0x50, 0x6F, 0x77, 0x65, 0x72, 0x22, 0x20,
        0x3A, 0x31, 0x34, 0x7D]
    let fractional : List UInt8 :=
      [0x7B, 0x22, 0x73, 0x70, 0x72, 0x65, 0x61, 0x64, 0x69, 0x6E, 0x67, 0x46, 0x61, 0x63, 0x74,
        0x6F, 0x72, 0x22, 0x3A, 0x37, 0x2E, 0x35, 0x7D]
    let post (body : List UInt8) : Request :=
      { method := "POST", target := "/api/lora/connect", body }
    let u : Update := { spreadingFactor := some 9, txPower := some 14 }
    let g :=
      Gateway.start (.hardware .scripted) { board := { chip := Chip.fresh Chip.chipVersion } } 10 0
    (post fitting).path ≠ "/api/lora/poll" ∧ (post fitting).Names (.connect u) ∧
      (respond g (post fitting)).2.Succeeds ∧
      (post fractional).path ≠ "/api/lora/poll" ∧ (∀ op, ¬(post fractional).Names op) ∧
      (respond g (post fractional)).2.Fails
        "Invalid configuration: spreadingFactor must be an integer, got 7.5" := by
  intro fitting fractional post u g
  -- the bodies are {"id": [1e999, "\ud800"], "spreadingFactor": 9.0, "txPower" :14} and
  -- {"spreadingFactor":7.5}
  let tenths (k : Nat) : Float := k.toUInt64.toFloat / Json.powerOfTen 1
  have hpath (body : List UInt8) : (post body).path = "/api/lora/connect" :=
    (by decide : (post []).path = "/api/lora/connect")
  have hnotPoll (body : List UInt8) : (post body).path ≠ "/api/lora/poll" := by
    rw [hpath]
    decide
  have hfits : (post fitting).PostsTo "/api/lora/connect" := ⟨rfl, hpath fitting, by decide⟩
  have hfractional : (post fractional).PostsTo "/api/lora/connect" :=
    ⟨rfl, hpath fractional, by decide⟩
  have hnone : Json.Blank [] := by decide
  have hspace : Json.Blank [0x20] := by decide
  have hname (name : String) : NameText name (Utf8.encode (name.toList.flatMap Json.writeChar)) :=
    Json.nameText_of_charsText (Json.charsText_write name.toList)
  have hasks : ConnectRequest.Asks fitting u := by
    have hpower : Json.PowerText [0x65, 0x39, 0x39, 0x39] :=
      @Json.PowerText.some 0x65 [] [0x39, 0x39, 0x39] rfl (by decide)
        ⟨List.all_eq_true.mp rfl, List.cons_ne_nil _ _⟩
    have hlarge : TextOf .value [0x31, 0x65, 0x39, 0x39, 0x39] :=
      .number (@Json.NumberText.of [] [0x31] [] _ (by decide)
        ⟨List.all_eq_true.mp rfl, List.cons_ne_nil _ _⟩ (by decide) .none hpower)
    have hhalf : Json.UnitText 0xD800 [0x64, 0x38, 0x30, 0x30] :=
      @Json.UnitText.digits _ _ _ _ 13 8 0 0 rfl rfl rfl rfl
    have hitems : TextOf .items [0x31, 0x65, 0x39, 0x39, 0x39, 0x2C, 0x20, 0x22, 0x5C, 0x75, 0x64,
        0x38, 0x30, 0x30, 0x22] :=
      .items (.item hnone hlarge hnone)
        (.lastItem (.item hspace (.string (.unit hhalf .nil)) hnone))
    have hnine : NumberOf (.real (tenths 90)) [0x39, 0x2E, 0x30] := Json.numberOf_of_number rfl
    have hfourteen : NumberOf (.integer 14) [0x31, 0x34] := Json.numberOf_of_number rfl
    have hmembers : MembersText connectFields [("id", none),
        ("spreadingFactor", some (.real (tenths 90))), ("txPower", some (.integer 14))]
        fitting.tail.dropLast :=
      .more (.of hnone (hname "id") hnone (.other (by decide) (.item hspace (.array hitems) hnone)))
        (.more (.of hspace (hname "spreadingFactor") hnone
          (.field (by decide) (.number hspace hnine hnone)))
        (.last (.of hspace (hname "txPower") hspace
          (.field (by decide) (.number hnone hfourteen hnone)))))
    refine ⟨_, .record (.object hnone hmembers (by decide) hnone), nofun, rfl, .none, .none, ?_, ?_⟩
    · exact .some ⟨Decimal.toInt?_eq_some.mp (by decide +kernel), by decide⟩
    · exact .some ⟨Decimal.toInt?_eq_some.mp (by decide +kernel), by decide, by decide⟩
  have hrefused : ConnectRequest.Refused fractional
      (.configuration "spreadingFactor must be an integer, got 7.5") := by
    have hvalue : NumberOf (.real (tenths 75)) [0x37, 0x2E, 0x35] := Json.numberOf_of_number rfl
    have hmembers : MembersText connectFields [("spreadingFactor", some (.real (tenths 75)))]
        fractional.tail.dropLast :=
      .last (.of hnone (hname "spreadingFactor") hnone
        (.field (by decide) (.number hnone hvalue hnone)))
    have hsays : ConnectRequest.Says { spreadingFactor := some (tenths 75) } fractional :=
      .record (.object hnone hmembers (by decide) hnone)
    have hfraction : ∀ i : Int, ¬Worth (tenths 75) i := by
      intro i hi
      have hround : (Decimal.Binary.ofFloat (tenths 75)).toInt? = none := by decide +kernel
      cases hround.symm.trans (Decimal.toInt?_eq_some.mpr hi)
    have hmessage :
        "spreadingFactor" ++ " must be an integer, got " ++ Radio.plainNumber (tenths 75) =
          "spreadingFactor must be an integer, got 7.5" := by
      decide +kernel
    refine .misfit hsays ⟨3,
      hmessage ▸ .fractional (List.mem_of_mem_tail List.mem_cons_self) hfraction, ?_⟩
    intro earlier hlt other hmisfit
    cases hmisfit with
    | frequency h | bandwidth h => cases h
    | fractional h | outside h =>
      simp only [ConnectRequest.integers, List.mem_cons, List.not_mem_nil, or_false,
        Prod.mk.injEq] at h
      obtain ⟨-, -, h, -⟩ | ⟨rfl, -⟩ | ⟨rfl, -⟩ := h
      · cases h
      · omega
      · omega
  obtain ⟨-, -, -, hanswer⟩ := requests_operate g .foreground (post fitting) [] (hnotPoll fitting)
  obtain ⟨-, -, -, hanswer'⟩ :=
    requests_operate g .foreground (post fractional) [] (hnotPoll fractional)
  have hnames : (post fitting).Names (.connect u) := .connect hfits hasks
  obtain ⟨hnames', hfails⟩ :=
    (hanswer' (.inl hfractional)).2.2.2.2 _ (.connect hfractional hrefused)
  have hrun : ((g.submit .direct .foreground (.connect u)).1.collect g.nextId).2.any
      Except.isOk = true := by
    decide +kernel
  obtain ⟨outcome, hsome, hok⟩ := Option.any_eq_true _ _ |>.mp hrun
  obtain e | answer := outcome
  · cases hok
  · exact ⟨hnotPoll fitting, hnames, (hanswer (.inl hfits)).2.1 _ answer hnames hsome,
      hnotPoll fractional, hnames', hfails⟩

end RadioGateway.Http
