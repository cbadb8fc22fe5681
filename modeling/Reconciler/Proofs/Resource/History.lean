import Reconciler.Resource.Lifecycle

/-! Operations on one resource, one after the other: what each of them asks, what it comes to, and
the state and the server that the next one finds. -/
namespace Reconciler

inductive Op
  | create
  | read
  | update
  | delete
  | adopt (id : String)
deriving DecidableEq

/-- What an operation that succeeds has observed or changed. -/
inductive Effect
  | observed (presence : Presence)
  | applied (result : ApplyResult)
deriving DecidableEq

structure Event where
  request? : Option Request
  result : Except Failure Effect

def Step.map {α β : Type} (f : α → β) (step : Step α) : Step β := (step.1.map f, step.2)

namespace Op
variable {σ : Type}

def call (k : Kind) (c : Client) (s : DeclaredState) : Op → Call (Step Effect)
  | .create => (k.create c s).map (Step.map .applied)
  | .read => (k.read c s).map (Step.map .observed)
  | .update => (k.update c s).map (Step.map .applied)
  | .delete => (k.delete c s).map (Step.map .applied)
  | .adopt id => (k.adopt c id s).map (Step.map .observed)

def step (server : Server σ) (k : Kind) (c : Client) (op : Op) (s : DeclaredState) (w : σ) :
    Event × DeclaredState × σ :=
  let call := op.call k c s
  let ((result, s'), w') := call.run server w
  (⟨call.request?, result⟩, s', w')

theorem step_of_exchange {server : Server σ} {k : Kind} {c : Client} {op : Op} {s : DeclaredState}
    {w w' : σ} {request : Request} {receive : Reply → Step Effect} {reply : Reply}
    (hcall : op.call k c s = .exchange request receive)
    (hanswer : server.answer request w = (reply, w')) :
    op.step server k c s w = (⟨some request, (receive reply).1⟩, (receive reply).2, w') := by
  simp only [step, hcall, Call.run, hanswer, Call.request?]

end Op

/-- What a list of operations leaves behind. -/
structure History (σ : Type) where
  events : List Event
  state : DeclaredState
  world : σ

def history {σ : Type} (server : Server σ) (k : Kind) (c : Client) :
    List Op → DeclaredState → σ → History σ
  | [], s, w => ⟨[], s, w⟩
  | op :: ops, s, w =>
    let (event, s', w') := op.step server k c s w
    let rest := history server k c ops s' w'
    ⟨event :: rest.events, rest.state, rest.world⟩

/-- A history goes on from what its first operation leaves behind. -/
theorem history_cons {σ : Type} {server : Server σ} {k : Kind} {c : Client} {op : Op}
    {ops : List Op} {s s' : DeclaredState} {w w' : σ} {event : Event}
    (h : op.step server k c s w = (event, s', w')) :
    history server k c (op :: ops) s w =
      ⟨event :: (history server k c ops s' w').events, (history server k c ops s' w').state,
        (history server k c ops s' w').world⟩ := by
  simp only [history, h]

end Reconciler
