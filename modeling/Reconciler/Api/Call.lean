import Reconciler.Api.Http

/-! Operations that make at most one exchange, and the servers they run against. -/
namespace Reconciler

/-- An outcome that is settled without the server, or one that waits for the reply to a single
request. -/
inductive Call (α : Type)
  | settled (outcome : α)
  | exchange (request : Request) (receive : Reply → α)

structure Server (σ : Type) where
  answer : Request → σ → Reply × σ

namespace Call
variable {α β σ : Type}

def map (f : α → β) : Call α → Call β
  | .settled a => .settled (f a)
  | .exchange request receive => .exchange request fun reply => f (receive reply)

def request? : Call α → Option Request
  | .settled _ => none
  | .exchange request _ => some request

def run (server : Server σ) : Call α → σ → α × σ
  | .settled a, w => (a, w)
  | .exchange request receive, w =>
    let (reply, w) := server.answer request w
    (receive reply, w)

@[simp] theorem run_settled (server : Server σ) (a : α) (w : σ) :
    (settled a).run server w = (a, w) := rfl

@[simp] theorem run_exchange (server : Server σ) (request : Request) (receive : Reply → α)
    (w : σ) : (exchange request receive).run server w =
      (receive (server.answer request w).1, (server.answer request w).2) := rfl

end Call

def Server.unreachable (σ : Type) (reason : String) : Server σ := ⟨fun _ w => (.lost reason, w)⟩

end Reconciler
