import Reconciler.Api.Call

/-! What can be said of a call before its request is answered. -/
namespace Reconciler

/-- The same server, which keeps the requests that it is sent, the latest of them last. -/
def Server.recording {σ : Type} (server : Server σ) : Server (List Request × σ) :=
  ⟨fun request w =>
    let (reply, w') := server.answer request w.2
    (reply, w.1 ++ [request], w')⟩

namespace Call
variable {α β σ : Type} {P Q : α → Prop} {call : Call α}

/-- Whatever the reply, the outcome has a property. -/
def Ensures (P : α → Prop) : Call α → Prop
  | .settled a => P a
  | .exchange _ receive => ∀ reply, P (receive reply)

theorem ensures_of_forall (h : ∀ a, P a) : call.Ensures P := by
  cases call with
  | settled a => exact h a
  | exchange request receive => exact fun reply => h (receive reply)

theorem Ensures.imp (h : call.Ensures P) (hPQ : ∀ a, P a → Q a) : call.Ensures Q := by
  cases call with
  | settled a => exact hPQ a h
  | exchange request receive => exact fun reply => hPQ _ (h reply)

theorem ensures_map {f : α → β} {P : β → Prop} :
    (call.map f).Ensures P ↔ call.Ensures fun a => P (f a) := by
  cases call <;> rfl

/-- What is ensured holds against every server. -/
theorem Ensures.run (h : call.Ensures P) (server : Server σ) (w : σ) :
    P (call.run server w).1 := by
  cases call with
  | settled a => exact h
  | exchange request receive => exact h _

@[simp] theorem request?_map (f : α → β) : (call.map f).request? = call.request? := by
  cases call <;> rfl

theorem run_map (f : α → β) (server : Server σ) (w : σ) :
    (call.map f).run server w = (f (call.run server w).1, (call.run server w).2) := by
  cases call <;> rfl

def sent (call : Call α) (server : Server σ) (w : σ) : List Request :=
  (call.run server.recording ([], w)).2.1

/-- Recording changes nothing else, and a call makes at most its one request. -/
theorem run_recording (server : Server σ) (requests : List Request) (w : σ) :
    call.run server.recording (requests, w) =
      ((call.run server w).1, requests ++ call.request?.toList, (call.run server w).2) := by
  cases call with
  | settled a => simp [request?]
  | exchange request receive => rfl

/-- A call sends its request, if it has one, and nothing else. -/
theorem sent_eq (server : Server σ) (w : σ) : call.sent server w = call.request?.toList := by
  rw [sent, run_recording, List.nil_append]

end Call
end Reconciler
