import Reconciler.Proofs.Api.Client
import Reconciler.Proofs.Api.Sharing
import Reconciler.Proofs.Text.Lossy

/-! What a client says of a response that it refuses: its path and status, the text that was sent
and the text that came back, neither of them altered by the way through bytes. -/
namespace Reconciler

def bytesOf (text : String) : List UInt8 := text.toByteArray.data.toList

/-- Refused responses are told with their path and status, the text that was sent, if any, and the
text of the response. -/
structure Tells {β : Type} (path : String) (sent : Option String)
    (receive : Reply → Except ApiError β) : Prop where
  unexpected : ∀ r : Response, r.status ≠ 200 → r.status ≠ 404 → r.status ≠ 422 →
    receive (.response r) = .error (.unexpectedStatus path r.status (sent.getD "") r.bodyText)
  invalid : ∀ r : Response, r.status = 422 →
    receive (.response r) = .error (.validation path r.bodyText)

theorem Tells.map {β γ : Type} {path : String} {sent : Option String}
    {receive : Reply → Except ApiError β} (h : Tells path sent receive)
    {f : Except ApiError β → Except ApiError γ} (hf : ∀ e, f (.error e) = .error e) :
    Tells path sent fun reply => f (receive reply) where
  unexpected := by
    intro r h200 h404 h422
    rw [h.unexpected r h200 h404 h422, hf]
  invalid := by
    intro r h422
    rw [h.invalid r h422, hf]

namespace Client
variable {c : Client} {method : Method} {path : String}

/-- The text of a request is the one that was put into its bytes. -/
theorem bodyText_request (sent : Option String) :
    (c.request method path (sent.map bytesOf)).bodyText = sent.getD "" := by
  cases sent with
  | none => rfl
  | some text => exact Utf8.decodeLossy_toByteArray text

/-- A client tells of refused responses all that there is to tell. -/
theorem tells_answered (c : Client) (method : Method) (path : String) (sent : Option String) :
    Tells path sent (c.answered method path (sent.map bytesOf)) where
  unexpected := by
    intro r h200 h404 h422
    rw [answered, bodyText_request, classify, if_neg h200, if_neg h404, if_neg h422]
  invalid := by
    intro r h422
    rw [answered, classify, h422]
    rfl

theorem exchange_eq (body : Option (List UInt8)) : c.exchange method path body =
    .exchange (c.request method path body) (c.answered method path body) := by
  unfold exchange
  refine congrArg (Call.exchange _) (funext fun reply => ?_)
  cases reply <;> rfl

theorem payload_eq (j : Json) : payload j = bytesOf j.pretty := Utf8.encode_eq j.pretty

end Client

namespace Errand
variable {α : Type}

def method : Errand α → Method
  | get .. => .get
  | put .. => .put
  | post .. => .post
  | delete _ | deleteWith .. => .delete

def path : Errand α → String
  | get path _ | put path _ | post path _ _ | delete path | deleteWith path _ => path

def text : Errand α → Except String (Option String)
  | get .. | delete _ => .ok none
  | put _ payload | post _ payload _ | deleteWith _ payload =>
    payload.map fun j => some j.pretty

theorem exists_of_text {payload : Payload} {sent : Option String}
    (h : (payload.map fun j => some j.pretty) = .ok sent) :
    ∃ j, payload = .ok j ∧ sent.map bytesOf = some (Client.payload j) := by
  cases payload with
  | error reason => cases h
  | ok j =>
    cases h
    exact ⟨j, rfl, congrArg some (Client.payload_eq j).symm⟩

/-- Whatever is asked for, it is one exchange, and what is said of its failure is passed on. -/
theorem exists_call_eq_map (c : Client) {errand : Errand α} {sent : Option String}
    (h : errand.text = .ok sent) : ∃ pass : Except ApiError Response → Outcome α,
      (∀ e, pass (.error e) = .error e) ∧
      errand.call c = (c.exchange errand.method errand.path (sent.map bytesOf)).map pass := by
  cases errand with
  | get path value =>
    cases h
    exact ⟨fun r => (r >>= decodeBody path value).map some, fun _ => rfl, rfl⟩
  | delete path =>
    cases h
    exact ⟨fun r => (r.map fun _ => ()).map fun _ => none, fun _ => rfl, rfl⟩
  | put path payload =>
    obtain ⟨j, rfl, hbytes⟩ := exists_of_text h
    refine ⟨fun r => (r.map fun _ => ()).map fun _ => none, fun _ => rfl, ?_⟩
    rw [hbytes]
    rfl
  | post path payload value =>
    obtain ⟨j, rfl, hbytes⟩ := exists_of_text h
    refine ⟨fun r => (r >>= decodeBody path value).map some, fun _ => rfl, ?_⟩
    rw [hbytes]
    rfl
  | deleteWith path payload =>
    obtain ⟨j, rfl, hbytes⟩ := exists_of_text h
    refine ⟨fun r => (r.map fun _ => ()).map fun _ => none, fun _ => rfl, ?_⟩
    rw [hbytes]
    rfl

/-- An errand whose payload can be written sends one request. -/
theorem exists_call_eq (c : Client) {errand : Errand α} {sent : Option String}
    (h : errand.text = .ok sent) : ∃ receive,
      errand.call c = .exchange (c.request errand.method errand.path (sent.map bytesOf)) receive ∧
        Tells errand.path sent receive := by
  obtain ⟨pass, hpass, hcall⟩ := exists_call_eq_map c h
  have htells := Client.tells_answered c errand.method errand.path sent
  refine ⟨_, ?_, htells.map hpass⟩
  rw [hcall, Client.exchange_eq]
  rfl

end Errand

/-- A response with another status than 200, 404 and 422 is told with the text that was sent and
the text that came back, and one with 422 with the text that came back. What came back as the bytes
of a text is that text; of any other bytes, every character that is spelled out is kept in its
place, and each longest part that belongs to none is one mark. -/
theorem Client.refusals_faithful (c : Client) :
    (∀ (method : Method) (path : String) (payload : Option Json), ∃ receive,
      c.exchange method path (payload.map Client.payload) =
        .exchange (c.request method path (payload.map fun j => bytesOf j.pretty)) receive ∧
      Tells path (payload.map Json.pretty) receive) ∧
    (∀ {α : Type} (errand : Errand α) (sent : Option String), errand.text = .ok sent →
      ∃ receive, errand.call c =
        .exchange (c.request errand.method errand.path (sent.map bytesOf)) receive ∧
        Tells errand.path sent receive) ∧
    ∀ r : Response, (∀ text, r.body = bytesOf text → r.bodyText = text) ∧
      ∀ cs, Utf8.ReadAs r.body cs ↔ r.bodyText.toList = cs := by
  refine ⟨fun method path payload => ?_, fun errand sent => errand.exists_call_eq c, ?_⟩
  · have htells := tells_answered c method path (payload.map Json.pretty)
    have hbody : payload.map Client.payload = (payload.map Json.pretty).map bytesOf := by
      rw [Option.map_map]
      exact congrArg (Option.map · payload) (funext payload_eq)
    rw [hbody, exchange_eq]
    refine ⟨_, ?_, htells⟩
    rw [Option.map_map]
    rfl
  · intro r
    refine ⟨fun text htext => ?_, fun cs => Utf8.readAs_iff⟩
    rw [Response.bodyText, htext]
    exact Utf8.decodeLossy_toByteArray text

/-- A server that breaks off inside one character and adds a byte that begins none. -/
theorem Client.refusals_faithful_put : ∃ receive,
    (Errand.put "/v2/node/a" (.ok (.record [("name", .text "x")])) : Errand Unit).call .blank =
      .exchange (blank.request .put "/v2/node/a"
        (some (bytesOf "\x7b\n  \"name\": \"x\"\n\x7d"))) receive ∧
    receive (.response ⟨500, [0x61, 0xE2, 0x82, 0x62, 0xFF]⟩) =
      .error (.unexpectedStatus "/v2/node/a" 500 "\x7b\n  \"name\": \"x\"\n\x7d"
        "a\ufffdb\ufffd") ∧
    receive (.response ⟨422, bytesOf "zu groß"⟩) = .error (.validation "/v2/node/a" "zu groß") := by
  have hpretty : Json.pretty (.record [("name", .text "x")]) =
      "\x7b\n  \"name\": \"x\"\n\x7d" := by decide
  obtain ⟨-, herrand, htext⟩ := blank.refusals_faithful
  obtain ⟨receive, hcall, htells⟩ := herrand (α := Unit)
    (.put "/v2/node/a" (.ok (.record [("name", .text "x")]))) (some _) rfl
  rw [hpretty] at hcall htells
  refine ⟨receive, hcall, ?_, ?_⟩
  · exact htells.unexpected ⟨500, _⟩ (by decide) (by decide) (by decide)
  · have hback := (htext ⟨422, bytesOf "zu groß"⟩).1 "zu groß" rfl
    rw [htells.invalid ⟨422, _⟩ rfl, hback]
    rfl

end Reconciler
