import Mathlib.Algebra.Order.BigOperators.Group.Finset
import Mathlib.Data.Fintype.Basic
import Mathlib.Logic.Relation
import Reconciler.Proofs.Api.DocumentServer

/-! One client in the hands of many callers, one small step at a time. Whoever writes holds the
client's lock from before its payload is encoded until its exchange is over, however that ends; who
reads does not ask for the lock. So a server never has two requests that write in flight. -/
namespace Reconciler

/-- A measure of all places goes down with that of one of them. -/
theorem sum_update_lt {ι β : Type} [Fintype ι] [DecidableEq ι] {f : ι → β} {measure : β → Nat}
    {i : ι} {b : β} (h : measure b < measure (f i)) :
    ∑ j, measure (Function.update f i b j) < ∑ j, measure (f j) := by
  refine Finset.sum_lt_sum (fun j _ => ?_) ⟨i, Finset.mem_univ i, by simpa using h⟩
  by_cases hj : j = i
  · subst hj
    simpa using h.le
  · simp [hj]

/-- What is to be sent: a JSON text, or the reason why the payload cannot be written as one. -/
abbrev Payload := Except String Json

inductive Errand (α : Type)
  | get (path : String) (value : Json → Option α)
  | put (path : String) (payload : Payload)
  | post (path : String) (payload : Payload) (value : Json → Option α)
  | delete (path : String)
  | deleteWith (path : String) (payload : Payload)

namespace Errand
variable {α : Type}

abbrev Outcome (α : Type) := Except ApiError (Option α)

def isWrite : Errand α → Bool
  | get .. => false
  | put .. | post .. | delete _ | deleteWith .. => true

def sending {β : Type} (path : String) (payload : Payload)
    (send : Json → Call (Except ApiError β)) : Call (Except ApiError β) :=
  match payload with
  | .ok j => send j
  | .error reason => .settled (.error (.encoding path reason))

def call (c : Client) : Errand α → Call (Outcome α)
  | get path value => (c.get path value).map (Except.map some)
  | put path payload =>
    (sending path payload fun j => c.put path j).map (Except.map fun _ => none)
  | post path payload value =>
    (sending path payload fun j => c.post path j value).map (Except.map some)
  | delete path => (c.delete path).map (Except.map fun _ => none)
  | deleteWith path payload =>
    (sending path payload fun j => c.deleteWith path j).map (Except.map fun _ => none)

/-- The lock is taken for the requests that write, and for no others. -/
theorem isMutating_of_call {c : Client} {errand : Errand α} {request : Request}
    {receive : Reply → Outcome α} (h : errand.call c = .exchange request receive) :
    request.method.isMutating = errand.isWrite := by
  cases errand with
  | get | delete =>
    cases h
    rfl
  | put _ payload | post _ payload | deleteWith _ payload =>
    cases payload <;> cases h
    rfl

/-- A reading always sends its request. -/
theorem exists_exchange_of_read {errand : Errand α} (h : errand.isWrite = false) (c : Client) :
    ∃ request receive, errand.call c = .exchange request receive := by
  cases errand with
  | get => exact ⟨_, _, rfl⟩
  | put | post | delete | deleteWith => cases h

end Errand

open Errand (Outcome)

namespace DocumentServer
variable {s : DocumentServer} {request : Request}

def close (s : DocumentServer) (request : Request) (documents : OrderedMap (List UInt8)) :
    DocumentServer := { s with documents }.depart request

/-- No request that writes is in flight, and there has never been more than one of them. -/
structure AtRest (s : DocumentServer) : Prop where
  inFlight : s.writesInFlight = 0
  most : s.mostWritesInFlight = if s.writes = [] then 0 else 1

theorem atRest_empty : empty.AtRest := ⟨rfl, rfl⟩

theorem arrive_of_read (h : request.method.isMutating = false) :
    s.arrive request = { s with requests := s.requests ++ [request] } := by
  simp [arrive, h]

theorem arrive_of_write (h : request.method.isMutating = true) :
    s.arrive request = { s with
      requests := s.requests ++ [request]
      writesInFlight := s.writesInFlight + 1
      mostWritesInFlight := max s.mostWritesInFlight (s.writesInFlight + 1) } := by
  simp [arrive, h]

theorem close_of_read (h : request.method.isMutating = false)
    (documents : OrderedMap (List UInt8)) : s.close request documents = { s with documents } := by
  simp [close, depart, h]

theorem close_of_write (h : request.method.isMutating = true)
    (documents : OrderedMap (List UInt8)) :
    s.close request documents = { s with documents, writesInFlight := s.writesInFlight - 1 } := by
  simp [close, depart, h]

theorem writes_append_read (h : request.method.isMutating = false) :
    ({ s with requests := s.requests ++ [request] } : DocumentServer).writes = s.writes := by
  simp [writes, h]

end DocumentServer

/-- How far a caller has come with its current errand. -/
inductive Stage (α : Type)
  | idle
  /-- It has just taken the lock. -/
  | locked (errand : Errand α)
  /-- Its request can be sent. -/
  | ready (request : Request) (receive : Reply → Outcome α)
  | waiting (request : Request) (receive : Reply → Outcome α)
  /-- Its errand has come to an end, good or bad, and it still has the lock. -/
  | closing (outcome : Outcome α)

namespace Stage
variable {α : Type}

/-- The stage of a write whose payload has been encoded, or could not be. -/
def encoded : Call (Outcome α) → Stage α
  | .settled outcome => closing outcome
  | .exchange request receive => ready request receive

@[simp] def isWriting : Stage α → Bool
  | waiting request _ => request.method.isMutating
  | idle | locked _ | ready .. | closing _ => false

@[simp] def holdsLock : Stage α → Bool
  | idle => false
  | waiting request _ => request.method.isMutating
  | locked _ | ready .. | closing _ => true

@[simp] def Writes : Stage α → Prop
  | locked errand => errand.isWrite = true
  | ready request _ => request.method.isMutating = true
  | idle | waiting .. | closing _ => True

def effort : Stage α → Nat
  | idle => 0
  | closing _ => 1
  | waiting .. => 2
  | ready .. => 3
  | locked _ => 4

theorem holdsLock_of_isWriting {stage : Stage α} (h : stage.isWriting = true) :
    stage.holdsLock = true := by
  cases stage with
  | waiting => exact h
  | idle | locked | ready | closing => cases h

/-- Encoding leaves the lock where it is: the request can be sent, or the write is over. -/
structure Encodes (stage : Stage α) : Prop where
  writes : stage.Writes
  holdsLock : stage.holdsLock = true
  isWriting : stage.isWriting = false

theorem encoded_spec {errand : Errand α} (h : errand.isWrite = true) (c : Client) :
    (encoded (errand.call c)).Encodes := by
  cases hcall : errand.call c with
  | settled outcome => exact ⟨trivial, rfl, rfl⟩
  | exchange request receive =>
    exact ⟨(Errand.isMutating_of_call hcall).trans h, rfl, rfl⟩

end Stage

structure Caller (α : Type) where
  todo : List (Errand α)
  stage : Stage α
  outcomes : List (Outcome α)

namespace Caller
variable {α : Type}

def Done (a : Caller α) : Prop := a.todo = [] ∧ a.stage = .idle

def effort (a : Caller α) : Nat := 5 * a.todo.length + a.stage.effort

def conclude (a : Caller α) (outcome : Outcome α) : Caller α :=
  ⟨a.todo, .idle, a.outcomes ++ [outcome]⟩

end Caller

structure Sharing (n : Nat) (α : Type) where
  callers : Fin n → Caller α
  /-- The caller that has the client's lock. -/
  lock : Option (Fin n)
  server : DocumentServer

namespace Sharing
variable {n : Nat} {α : Type}

def start (errands : Fin n → List (Errand α)) (server : DocumentServer) : Sharing n α :=
  ⟨fun i => ⟨errands i, .idle, []⟩, none, server⟩

def proceed (m : Sharing n α) (i : Fin n) (stage : Stage α) : Sharing n α :=
  { m with callers := Function.update m.callers i { m.callers i with stage } }

def begin (m : Sharing n α) (i : Fin n) (rest : List (Errand α)) (stage : Stage α) :
    Sharing n α :=
  { m with callers := Function.update m.callers i { m.callers i with todo := rest, stage } }

def conclude (m : Sharing n α) (i : Fin n) (outcome : Outcome α) : Sharing n α :=
  { m with callers := Function.update m.callers i ((m.callers i).conclude outcome) }

/-- One step of one caller. A reading is a request and its answer. A write takes the lock, encodes
its payload, makes its exchange if that went well, and gives the lock back. An answer may be any
reply, and whatever happens to the documents of the server meanwhile. -/
inductive Moves (c : Client) : Sharing n α → Sharing n α → Prop
  | take {m} {i} {errand} {rest} (hidle : (m.callers i).stage = .idle)
      (htodo : (m.callers i).todo = errand :: rest) (hwrite : errand.isWrite = true)
      (hfree : m.lock = none) :
      Moves c m { m.begin i rest (.locked errand) with lock := some i }
  | encode {m} {i} {errand} (hstage : (m.callers i).stage = .locked errand) :
      Moves c m (m.proceed i (.encoded (errand.call c)))
  | send {m} {i} {request} {receive} (hstage : (m.callers i).stage = .ready request receive) :
      Moves c m { m.proceed i (.waiting request receive) with server := m.server.arrive request }
  | finish {m} {i} {request} {receive} (hstage : (m.callers i).stage = .waiting request receive)
      (hwrite : request.method.isMutating = true) (reply : Reply)
      (documents : OrderedMap (List UInt8)) :
      Moves c m { m.proceed i (.closing (receive reply)) with
        server := m.server.close request documents }
  | release {m} {i} {outcome} (hstage : (m.callers i).stage = .closing outcome) :
      Moves c m { m.conclude i outcome with lock := none }
  | ask {m} {i} {errand} {rest} {request} {receive} (hidle : (m.callers i).stage = .idle)
      (htodo : (m.callers i).todo = errand :: rest) (hread : errand.isWrite = false)
      (hcall : errand.call c = .exchange request receive) :
      Moves c m { m.begin i rest (.waiting request receive) with server := m.server.arrive request }
  | answer {m} {i} {request} {receive} (hstage : (m.callers i).stage = .waiting request receive)
      (hread : request.method.isMutating = false) (reply : Reply)
      (documents : OrderedMap (List UInt8)) :
      Moves c m { m.conclude i (receive reply) with server := m.server.close request documents }

def Leads (c : Client) : Sharing n α → Sharing n α → Prop := Relation.ReflTransGen (Moves c)

def Reaches (c : Client) (errands : Fin n → List (Errand α)) (server : DocumentServer)
    (m : Sharing n α) : Prop := Leads c (start errands server) m

def Done (m : Sharing n α) : Prop := ∀ i, (m.callers i).Done

section Invariant
variable {c : Client} {m m' : Sharing n α} {i j : Fin n}

/-- What every step preserves: who has the lock is in the middle of a write, and the server's
figures are those of one write at a time. -/
structure Sound (m : Sharing n α) : Prop where
  owner : ∀ i, m.lock = some i ↔ (m.callers i).stage.holdsLock = true
  writes : ∀ i, (m.callers i).stage.Writes
  inFlight : m.server.writesInFlight =
    if ∃ i, (m.callers i).stage.isWriting = true then 1 else 0
  most : m.server.mostWritesInFlight = if m.server.writes = [] then 0 else 1

/-- Only one caller has the lock. -/
theorem Sound.eq_of_holdsLock (hs : Sound m) (hi : (m.callers i).stage.holdsLock = true)
    (hj : (m.callers j).stage.holdsLock = true) : i = j :=
  Option.some.inj (((hs.owner i).2 hi).symm.trans ((hs.owner j).2 hj))

/-- Nobody else writes while a caller has the lock. -/
theorem Sound.eq_of_isWriting (hs : Sound m) (hi : (m.callers i).stage.holdsLock = true)
    (hj : (m.callers j).stage.isWriting = true) : j = i :=
  hs.eq_of_holdsLock (Stage.holdsLock_of_isWriting hj) hi

theorem sound_start {errands : Fin n → List (Errand α)} {server : DocumentServer}
    (h : server.AtRest) : Sound (start errands server) where
  owner i := by simp [start, Stage.holdsLock]
  writes i := trivial
  inFlight := by simp [start, Stage.isWriting, h.inFlight]
  most := h.most

section Update
variable {b : Caller α}

theorem Sound.owner_update (hs : Sound m) {lock : Option (Fin n)}
    (hi : lock = some i ↔ b.stage.holdsLock = true)
    (hothers : ∀ j, j ≠ i → (lock = some j ↔ m.lock = some j)) (j : Fin n) :
    lock = some j ↔ (Function.update m.callers i b j).stage.holdsLock = true := by
  by_cases hj : j = i
  · subst hj
    simpa using hi
  · simpa [hj] using (hothers j hj).trans (hs.owner j)

theorem Sound.writes_update (hs : Sound m) (hb : b.stage.Writes) (j : Fin n) :
    (Function.update m.callers i b j).stage.Writes := by
  by_cases hj : j = i
  · subst hj
    simpa using hb
  · simpa [hj] using hs.writes j

theorem isWriting_update (hb : b.stage.isWriting = (m.callers i).stage.isWriting) (j : Fin n) :
    (Function.update m.callers i b j).stage.isWriting = (m.callers j).stage.isWriting := by
  by_cases hj : j = i
  · subst hj
    simpa using hb
  · simp [hj]

theorem Sound.inFlight_update (hs : Sound m)
    (hb : b.stage.isWriting = (m.callers i).stage.isWriting) : m.server.writesInFlight =
      if ∃ j, (Function.update m.callers i b j).stage.isWriting = true then 1 else 0 := by
  simp only [isWriting_update hb]
  exact hs.inFlight

/-- A caller neither takes nor gives back the lock, and neither begins nor ends an exchange that
writes. -/
theorem Sound.keep (hs : Sound m) (hholds : b.stage.holdsLock = (m.callers i).stage.holdsLock)
    (hwriting : b.stage.isWriting = (m.callers i).stage.isWriting) (hb : b.stage.Writes)
    {server : DocumentServer} (hinFlight : server.writesInFlight = m.server.writesInFlight)
    (hmost : server.mostWritesInFlight = m.server.mostWritesInFlight)
    (hwrites : server.writes = m.server.writes) :
    Sound { m with callers := Function.update m.callers i b, server } where
  owner := hs.owner_update (hholds ▸ hs.owner i) fun _ _ => .rfl
  writes := hs.writes_update hb
  inFlight := hinFlight.trans (hs.inFlight_update hwriting)
  most := by
    rw [hmost, hwrites]
    exact hs.most

end Update

/-- Taking the lock while it is free is sound. -/
theorem Sound.take (hs : Sound m) (hidle : (m.callers i).stage = .idle) {errand : Errand α}
    (hwrite : errand.isWrite = true) (hfree : m.lock = none) (rest : List (Errand α)) :
    Sound { m.begin i rest (.locked errand) with lock := some i } where
  owner := by
    refine hs.owner_update (iff_of_true rfl rfl) fun j hj => ?_
    simp [hfree, Ne.symm hj]
  writes := hs.writes_update hwrite
  inFlight := hs.inFlight_update (by simp [hidle])
  most := hs.most

theorem Sound.send (hs : Sound m) {request : Request} {receive : Reply → Outcome α}
    (hstage : (m.callers i).stage = .ready request receive) :
    Sound { m.proceed i (.waiting request receive) with server := m.server.arrive request } := by
  have hwrite : request.method.isMutating = true := by simpa [hstage] using hs.writes i
  have hholds : (m.callers i).stage.holdsLock = true := by rw [hstage]; rfl
  -- nobody is writing yet: it would have to be the caller with the lock, which is only ready to
  have hnone : ¬∃ j, (m.callers j).stage.isWriting = true := by
    rintro ⟨j, hj⟩
    obtain rfl := hs.eq_of_isWriting hholds hj
    rw [hstage] at hj
    cases hj
  have hzero : m.server.writesInFlight = 0 := hs.inFlight.trans (if_neg hnone)
  rw [DocumentServer.arrive_of_write hwrite]
  exact {
    owner := hs.owner_update (iff_of_true ((hs.owner i).2 hholds) hwrite) fun _ _ => .rfl
    writes := hs.writes_update trivial
    inFlight := by
      rw [if_pos ⟨i, by simpa [proceed] using hwrite⟩]
      exact congrArg (· + 1) hzero
    most := by
      have hmost : m.server.mostWritesInFlight ≤ 1 := by
        rw [hs.most]
        split <;> decide
      simp [DocumentServer.writes, hwrite, hzero, hmost] }

theorem Sound.finish (hs : Sound m) {request : Request} {receive : Reply → Outcome α}
    (hstage : (m.callers i).stage = .waiting request receive)
    (hwrite : request.method.isMutating = true) (outcome : Outcome α)
    (documents : OrderedMap (List UInt8)) :
    Sound { m.proceed i (.closing outcome) with
      server := m.server.close request documents } := by
  have hwriting : (m.callers i).stage.isWriting = true := by rw [hstage]; exact hwrite
  have hholds := Stage.holdsLock_of_isWriting hwriting
  have hone : m.server.writesInFlight = 1 := hs.inFlight.trans (if_pos ⟨i, hwriting⟩)
  rw [DocumentServer.close_of_write hwrite]
  exact {
    owner := hs.owner_update (iff_of_true ((hs.owner i).2 hholds) rfl) fun _ _ => .rfl
    writes := hs.writes_update trivial
    inFlight := by
      rw [if_neg]
      · exact congrArg (· - 1) hone
      · rintro ⟨j, hj⟩
        by_cases hji : j = i
        · subst hji
          simp [proceed, Stage.isWriting] at hj
        · exact hji (hs.eq_of_isWriting hholds (by simpa [proceed, hji] using hj))
    most := hs.most }

theorem Sound.release (hs : Sound m) {outcome : Outcome α}
    (hstage : (m.callers i).stage = .closing outcome) :
    Sound { m.conclude i outcome with lock := none } where
  owner := by
    have hholds : m.lock = some i := (hs.owner i).2 (by rw [hstage]; rfl)
    refine hs.owner_update (iff_of_false nofun nofun) fun j hj => ?_
    simp [hholds, Ne.symm hj]
  writes := hs.writes_update trivial
  inFlight := hs.inFlight_update (by simp [hstage, Caller.conclude])
  most := hs.most

/-- Every step is sound. -/
theorem Sound.moves (hs : Sound m) (h : Moves c m m') : Sound m' := by
  cases h with
  | take hidle _ hwrite hfree => exact hs.take hidle hwrite hfree _
  | @encode i errand hstage =>
    have hwrite : errand.isWrite = true := by simpa [hstage] using hs.writes i
    have hencoded := Stage.encoded_spec hwrite c
    refine hs.keep ?_ ?_ hencoded.writes rfl rfl rfl
    · rw [hstage]
      exact hencoded.holdsLock
    · rw [hstage]
      exact hencoded.isWriting
  | send hstage => exact hs.send hstage
  | finish hstage hwrite reply documents => exact hs.finish hstage hwrite _ documents
  | release hstage => exact hs.release hstage
  | @ask i errand rest request receive hidle _ hread hcall =>
    have hread' := (Errand.isMutating_of_call hcall).trans hread
    rw [DocumentServer.arrive_of_read hread']
    have hwrites := DocumentServer.writes_append_read (s := m.server) hread'
    exact hs.keep (by simp [hidle, hread']) (by simp [hidle, hread']) (by simp) rfl rfl hwrites
  | @answer i request receive hstage hread reply documents =>
    rw [DocumentServer.close_of_read hread]
    exact hs.keep (by simp [hstage, hread, Caller.conclude])
      (by simp [hstage, hread, Caller.conclude]) (by simp [Caller.conclude]) rfl rfl rfl

theorem Sound.leads (hs : Sound m) (h : Leads c m m') : Sound m' := by
  induction h with
  | refl => exact hs
  | tail _ hstep ih => exact ih.moves hstep

end Invariant

section Effort
variable {c : Client} {m m' : Sharing n α}

def effort (m : Sharing n α) : Nat := ∑ i, (m.callers i).effort

/-- Every step brings the callers nearer to their ends. -/
theorem effort_lt_of_moves (h : Moves c m m') : m'.effort < m.effort := by
  cases h with
  | take hidle htodo | ask hidle htodo =>
    refine sum_update_lt ?_
    simp [Caller.effort, Stage.effort, hidle, htodo]
    omega
  | @encode i errand hstage =>
    refine sum_update_lt ?_
    cases hcall : errand.call c <;> simp [Caller.effort, Stage.effort, Stage.encoded, hstage]
  | send hstage | finish hstage | release hstage | answer hstage =>
    refine sum_update_lt ?_
    simp [Caller.effort, Caller.conclude, Stage.effort, hstage]

/-- No interleaving goes on for ever. -/
theorem wellFounded_moves : WellFounded fun m' m : Sharing n α => Moves c m m' :=
  Subrelation.wf effort_lt_of_moves (measure effort).wf

end Effort
end Sharing
end Reconciler
