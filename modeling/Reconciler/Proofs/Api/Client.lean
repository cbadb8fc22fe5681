import Reconciler.Api.Client

/-! What a client makes of the reply to one request: success, a missing resource, or a failure. -/
namespace Reconciler

/-- The value that the bytes of a JSON text spell. -/
def spelled? {α : Type} (value : Json → Option α) (body : List UInt8) : Option α :=
  Json.parseBytes? body >>= value

theorem decodeBody_eq_ok_iff {α : Type} {path : String} {value : Json → Option α}
    {response : Response} {x : α} :
    decodeBody path value response = .ok x ↔ spelled? value response.body = some x := by
  unfold decodeBody spelled?
  cases Json.parseBytes? response.body with
  | none => simp
  | some j => cases hv : value j <;> simp [hv]

/-- A body that spells no value is told apart from every other failure. -/
theorem decodeBody_of_not_spelled {α : Type} {path : String} {value : Json → Option α}
    {response : Response} (h : spelled? value response.body = none) :
    ∃ reason, decodeBody path value response = .error (.decoding path reason) := by
  unfold spelled? at h
  unfold decodeBody
  cases htext : Json.parseBytes? response.body with
  | none => exact ⟨_, rfl⟩
  | some j =>
    rw [htext] at h
    have hvalue : value j = none := h
    exact ⟨_, by simp only [hvalue]; rfl⟩

theorem isNotFound_of_decodeBody {α : Type} {path : String} {value : Json → Option α}
    {response : Response} {e : ApiError} (h : decodeBody path value response = .error e) :
    e.isNotFound = false := by
  unfold decodeBody at h
  split at h
  · cases h
    rfl
  · split at h
    · cases h
      rfl
    · cases h

def Server.answering (body : List UInt8) : Server Unit := ⟨fun _ w => (.response ⟨200, body⟩, w)⟩

namespace Client

def blank : Client := ⟨"", .token "", ⟨"", ""⟩⟩

def answered (c : Client) (method : Method) (path : String) (body : Option (List UInt8)) :
    Reply → Except ApiError Response
  | .lost reason => .error (.network (c.baseUrl ++ path) reason)
  | .response response => classify path (c.request method path body).bodyText response

section Answered
variable (c : Client) (method : Method) (path : String) (body : Option (List UInt8))

theorem put_eq (j : Json) :
    c.put path j = .exchange (c.request .put path (some (payload j))) fun reply =>
      (c.answered .put path (some (payload j)) reply).map fun _ => () := rfl

@[simp] theorem answered_ok (answer : List UInt8) :
    c.answered method path body (.response ⟨200, answer⟩) = .ok ⟨200, answer⟩ := rfl

/-- Any other reply is a failure, and none that means a missing resource. -/
theorem answered_error {reply : Reply} (ok : ∀ answer, reply ≠ .response ⟨200, answer⟩)
    (missing : ∀ answer, reply ≠ .response ⟨404, answer⟩) :
    ∃ e, c.answered method path body reply = .error e ∧ e.isNotFound = false := by
  cases reply with
  | lost reason => exact ⟨_, rfl, rfl⟩
  | response r =>
    obtain ⟨status, answer⟩ := r
    have h200 : status ≠ 200 := fun h => ok answer (by rw [h])
    have h404 : status ≠ 404 := fun h => missing answer (by rw [h])
    simp only [answered, classify, if_neg h200, if_neg h404]
    split <;> exact ⟨_, rfl, rfl⟩

end Answered
end Client
end Reconciler
