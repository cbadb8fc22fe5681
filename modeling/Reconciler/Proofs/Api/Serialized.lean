import Reconciler.Proofs.Api.Client
import Reconciler.Proofs.Api.Sharing

/-! What comes of a shared client at every moment: a write at a time and readings beside it, nobody
who waits for ever, and a free lock and a quiet server at the end. -/
namespace Reconciler
open Errand (Outcome)

/-- The server's own answer closes a request in one of the ways that an answer can. -/
theorem DocumentServer.reply_depart (s : DocumentServer) (request : Request) :
    (s.reply request).2.depart request = s.close request (s.reply request).2.documents := by
  cases h : s.scripts.lookup (request.method, pathOf request.url) with
  | some reply =>
    rw [reply_of_script h]
    rfl
  | none =>
    rw [reply_of_unscripted h]
    rfl

namespace Stage
variable {α : Type}

/-- How an errand ends that has come this far, with a reply if it is still to be sent or answered,
and the server as it is then. -/
def ending (c : Client) (s : DocumentServer) (reply : Reply)
    (documents : OrderedMap (List UInt8)) : Stage α → Option (Outcome α × DocumentServer)
  | idle => none
  | locked errand =>
    match errand.call c with
    | .settled outcome => some (outcome, s)
    | .exchange request receive =>
      some (receive reply, (s.arrive request).close request documents)
  | ready request receive => some (receive reply, (s.arrive request).close request documents)
  | waiting request receive => some (receive reply, s.close request documents)
  | closing outcome => some (outcome, s)

/-- A caller with the lock comes to an end, whatever the reply. -/
theorem exists_ending {stage : Stage α} (h : stage.holdsLock = true) (c : Client)
    (s : DocumentServer) (reply : Reply) (documents : OrderedMap (List UInt8)) :
    ∃ outcome server, stage.ending c s reply documents = some (outcome, server) := by
  cases stage with
  | idle => cases h
  | locked errand =>
    simp only [ending]
    cases errand.call c <;> exact ⟨_, _, rfl⟩
  | ready | waiting | closing => exact ⟨_, _, rfl⟩

/-- The server's own reply makes an errand end as it does when it is run. -/
theorem exists_ending_eq_run (c : Client) (s : DocumentServer) (errand : Errand α) :
    ∃ reply documents, (locked errand).ending c s reply documents =
      some ((errand.call c).run DocumentServer.server s) := by
  cases hcall : errand.call c with
  | settled outcome => exact ⟨.lost "", s.documents, by simp [ending, hcall]⟩
  | exchange request receive =>
    refine ⟨((s.arrive request).reply request).1,
      ((s.arrive request).reply request).2.documents, ?_⟩
    simp only [ending, hcall, ← DocumentServer.reply_depart]
    rfl

end Stage

namespace Sharing
variable {n : Nat} {α : Type}

section Ways
variable {c : Client} {m m' m'' : Sharing n α} {i : Fin n} {request : Request}
  {receive : Reply → Outcome α}

theorem Leads.step (h : Moves c m m') (hleads : Leads c m' m'') : Leads c m m'' := .head h hleads

/-- One caller has come to the end of an errand while all others stayed where they were. -/
def settle (m : Sharing n α) (i : Fin n) (todo : List (Errand α)) (outcome : Outcome α)
    (lock : Option (Fin n)) (server : DocumentServer) : Sharing n α :=
  ⟨Function.update m.callers i ⟨todo, .idle, (m.callers i).outcomes ++ [outcome]⟩, lock, server⟩

theorem leads_of_closing {outcome : Outcome α} (h : (m.callers i).stage = .closing outcome) :
    Leads c m (m.settle i (m.callers i).todo outcome none m.server) :=
  .single (.release h)

theorem leads_of_waiting (h : (m.callers i).stage = .waiting request receive)
    (hwrite : request.method.isMutating = true) (reply : Reply)
    (documents : OrderedMap (List UInt8)) :
    Leads c m (m.settle i (m.callers i).todo (receive reply) none
      (m.server.close request documents)) := by
  refine .step (.finish h hwrite reply documents) ?_
  simpa [proceed, settle] using leads_of_closing (c := c) (i := i)
    (m := { m.proceed i (.closing (receive reply)) with
      server := m.server.close request documents }) (by simp [proceed])

theorem leads_of_ready (h : (m.callers i).stage = .ready request receive)
    (hwrite : request.method.isMutating = true) (reply : Reply)
    (documents : OrderedMap (List UInt8)) :
    Leads c m (m.settle i (m.callers i).todo (receive reply) none
      ((m.server.arrive request).close request documents)) := by
  refine .step (.send h) ?_
  simpa [proceed, settle] using leads_of_waiting (c := c) (i := i)
    (m := { m.proceed i (.waiting request receive) with server := m.server.arrive request })
    (by simp [proceed]) hwrite reply documents

theorem leads_of_locked {errand : Errand α} (h : (m.callers i).stage = .locked errand)
    (hwrite : errand.isWrite = true) {reply : Reply} {documents : OrderedMap (List UInt8)}
    {outcome : Outcome α} {server : DocumentServer}
    (hend : (Stage.locked errand).ending c m.server reply documents = some (outcome, server)) :
    Leads c m (m.settle i (m.callers i).todo outcome none server) := by
  have hencode : Moves c m (m.proceed i (.encoded (errand.call c))) := .encode h
  refine .step hencode ?_
  cases hcall : errand.call c with
  | settled outcome =>
    simp only [Stage.ending, hcall] at hend
    obtain ⟨⟩ := hend
    simpa [proceed, settle, Stage.encoded] using leads_of_closing (c := c) (i := i)
      (m := m.proceed i (.closing outcome)) (by simp [proceed])
  | exchange request receive =>
    simp only [Stage.ending, hcall] at hend
    obtain ⟨⟩ := hend
    have hwrite' := (Errand.isMutating_of_call hcall).trans hwrite
    simpa [proceed, settle, Stage.encoded] using leads_of_ready (c := c) (i := i)
      (m := m.proceed i (.ready request receive)) (by simp [proceed]) hwrite' reply documents

theorem leads_of_read {errand : Errand α} {rest : List (Errand α)}
    (hidle : (m.callers i).stage = .idle) (htodo : (m.callers i).todo = errand :: rest)
    (hread : errand.isWrite = false) (hcall : errand.call c = .exchange request receive)
    (reply : Reply) (documents : OrderedMap (List UInt8)) :
    Leads c m (m.settle i rest (receive reply) m.lock
      ((m.server.arrive request).close request documents)) := by
  have hread' := (Errand.isMutating_of_call hcall).trans hread
  refine .step (.ask hidle htodo hread hcall) (.single ?_)
  simpa [begin, settle, Sharing.conclude, Caller.conclude] using Moves.answer (c := c) (i := i)
    (m := { m.begin i rest (.waiting request receive) with server := m.server.arrive request })
    (by simp [begin]) hread' reply documents

/-- Whoever has the lock comes to give it back, whatever the reply. -/
theorem leads_of_ending (hs : Sound m) (h : (m.callers i).stage.holdsLock = true) {reply : Reply}
    {documents : OrderedMap (List UInt8)} {outcome : Outcome α} {server : DocumentServer}
    (hend : (m.callers i).stage.ending c m.server reply documents = some (outcome, server)) :
    Leads c m (m.settle i (m.callers i).todo outcome none server) := by
  have hwrite := hs.writes i
  cases hstage : (m.callers i).stage with
  | idle =>
    rw [hstage] at h
    cases h
  | locked errand =>
    rw [hstage] at hwrite hend
    exact leads_of_locked hstage hwrite hend
  | ready request receive =>
    rw [hstage] at hwrite hend
    cases hend
    exact leads_of_ready hstage hwrite reply documents
  | waiting request receive =>
    rw [hstage] at h hend
    cases hend
    exact leads_of_waiting hstage h reply documents
  | closing outcome =>
    rw [hstage] at hend
    cases hend
    exact leads_of_closing hstage

/-- With the lock free, an errand can come to what it comes to when it is run by itself. -/
theorem leads_run {errand : Errand α} {rest : List (Errand α)}
    (hidle : (m.callers i).stage = .idle) (htodo : (m.callers i).todo = errand :: rest)
    (hfree : m.lock = none) :
    Leads c m (m.settle i rest ((errand.call c).run DocumentServer.server m.server).1 none
      ((errand.call c).run DocumentServer.server m.server).2) := by
  cases hwrite : errand.isWrite with
  | false =>
    obtain ⟨request, receive, hcall⟩ := Errand.exists_exchange_of_read hwrite c
    have hread := leads_of_read hidle htodo hwrite hcall
      ((m.server.arrive request).reply request).1
      ((m.server.arrive request).reply request).2.documents
    rw [← DocumentServer.reply_depart, hfree] at hread
    rw [hcall]
    exact hread
  | true =>
    obtain ⟨reply, documents, hend⟩ := Stage.exists_ending_eq_run c m.server errand
    generalize (errand.call c).run DocumentServer.server m.server = result at hend ⊢
    refine .step (.take hidle htodo hwrite hfree) ?_
    simpa [begin, settle] using leads_of_locked (c := c) (i := i)
      (m := { m.begin i rest (.locked errand) with lock := some i }) (by simp [begin]) hwrite hend

end Ways

section Progress
variable {c : Client} {m m' : Sharing n α} {i : Fin n}

/-- A caller with the lock can always go on. -/
theorem exists_moves_of_holdsLock (h : (m.callers i).stage.holdsLock = true) :
    ∃ m', Moves c m m' := by
  cases hstage : (m.callers i).stage with
  | idle =>
    rw [hstage] at h
    cases h
  | locked errand => exact ⟨_, .encode hstage⟩
  | ready request receive => exact ⟨_, .send hstage⟩
  | waiting request receive =>
    rw [hstage] at h
    exact ⟨_, .finish hstage h (.lost "") m.server.documents⟩
  | closing outcome => exact ⟨_, .release hstage⟩

/-- With the lock free, whoever has something to do can go on with it. -/
theorem done_or_moves_of_free (hfree : m.lock = none)
    (hi : (m.callers i).stage.holdsLock = false) : (m.callers i).Done ∨ ∃ m', Moves c m m' := by
  cases hstage : (m.callers i).stage with
  | idle =>
    cases htodo : (m.callers i).todo with
    | nil => exact .inl ⟨htodo, hstage⟩
    | cons errand rest =>
      cases hwrite : errand.isWrite with
      | true => exact .inr ⟨_, .take hstage htodo hwrite hfree⟩
      | false =>
        obtain ⟨request, receive, hcall⟩ := Errand.exists_exchange_of_read hwrite c
        exact .inr ⟨_, .ask hstage htodo hwrite hcall⟩
  | waiting request receive =>
    rw [hstage] at hi
    exact .inr ⟨_, .answer hstage hi (.lost "") m.server.documents⟩
  | locked | ready | closing =>
    rw [hstage] at hi
    cases hi

/-- The callers never get stuck: as long as one has something to do, one can go on. -/
theorem Sound.done_or_moves (hs : Sound m) (c : Client) : Done m ∨ ∃ m', Moves c m m' := by
  cases hlock : m.lock with
  | some i => exact .inr (exists_moves_of_holdsLock ((hs.owner i).1 hlock))
  | none =>
    refine or_iff_not_imp_right.2 fun hstuck i => ?_
    have hi : (m.callers i).stage.holdsLock = false := by
      simpa [hlock] using hs.owner i
    exact (done_or_moves_of_free hlock hi).resolve_right hstuck

end Progress

/-- What can be said of every moment of a shared client. -/
structure Serialized (c : Client) (m : Sharing n α) : Prop where
  once : ∀ i j, (m.callers i).stage.isWriting = true → (m.callers j).stage.isWriting = true → i = j
  inFlight : m.server.writesInFlight =
    if ∃ i, (m.callers i).stage.isWriting = true then 1 else 0
  owner : ∀ i, m.lock = some i ↔ (m.callers i).stage.holdsLock = true
  /-- Whoever may have the lock, a reading can be sent, -/
  reads : ∀ i errand rest, (m.callers i).stage = .idle → (m.callers i).todo = errand :: rest →
    errand.isWrite = false → ∃ request receive, errand.call c = .exchange request receive ∧
      ∀ reply documents, Leads c m (m.settle i rest (receive reply) m.lock
        ((m.server.arrive request).close request documents))
  /-- and one that has been sent comes to its end. -/
  answers : ∀ i request receive, (m.callers i).stage = .waiting request receive →
    request.method.isMutating = false → ∀ reply documents,
      Leads c m (m.settle i (m.callers i).todo (receive reply) m.lock
        (m.server.close request documents))
  /-- Whoever has the lock comes to give it back by itself, however its errand ends. -/
  releases : ∀ i, m.lock = some i → ∀ reply documents, ∃ outcome server,
    (m.callers i).stage.ending c m.server reply documents = some (outcome, server) ∧
      Leads c m (m.settle i (m.callers i).todo outcome none server)
  /-- With the lock free, an errand can run as it does with nobody else about. -/
  runs : ∀ i errand rest, (m.callers i).stage = .idle → (m.callers i).todo = errand :: rest →
    m.lock = none →
      Leads c m (m.settle i rest ((errand.call c).run DocumentServer.server m.server).1 none
        ((errand.call c).run DocumentServer.server m.server).2)
  /-- Somebody can go on until all are done, and that is not for ever. -/
  goesOn : Done m ∨ ∃ m', Moves c m m'
  ends : Acc (fun m' m => Moves c m m') m
  atRest : Done m → m.lock = none ∧ m.server.AtRest

section Result
variable {c : Client} {m : Sharing n α} {errands : Fin n → List (Errand α)}
  {server : DocumentServer}

theorem Sound.atRest_of_done (hs : Sound m) (hdone : Done m) :
    m.lock = none ∧ m.server.AtRest := by
  have hfree : ∀ i, (m.callers i).stage.holdsLock = false := by
    intro i
    rw [(hdone i).2]
    rfl
  refine ⟨Option.eq_none_iff_forall_ne_some.2 fun i hi => ?_, ?_, hs.most⟩
  · exact Bool.false_ne_true ((hfree i).symm.trans ((hs.owner i).1 hi))
  · refine hs.inFlight.trans (if_neg ?_)
    rintro ⟨i, hi⟩
    exact Bool.false_ne_true ((hfree i).symm.trans (Stage.holdsLock_of_isWriting hi))

/-- Whoever has the lock can give it back while all others wait. -/
theorem Sound.releases (hs : Sound m) (c : Client) {i : Fin n} (hlock : m.lock = some i)
    (reply : Reply) (documents : OrderedMap (List UInt8)) : ∃ outcome server,
      (m.callers i).stage.ending c m.server reply documents = some (outcome, server) ∧
        Leads c m (m.settle i (m.callers i).todo outcome none server) := by
  have hholds := (hs.owner i).1 hlock
  obtain ⟨outcome, server, hend⟩ := Stage.exists_ending hholds c m.server reply documents
  exact ⟨outcome, server, hend, leads_of_ending hs hholds hend⟩

/-- The writes of a client go one after another, whatever its callers ask for, in whatever order
they get on, and however their exchanges end. -/
theorem writes_serialized (hserver : server.AtRest) (h : Reaches c errands server m) :
    m.Serialized c := by
  have hs : Sound m := (sound_start hserver).leads h
  exact {
    once := fun i j hi hj => hs.eq_of_holdsLock (Stage.holdsLock_of_isWriting hi)
      (Stage.holdsLock_of_isWriting hj)
    inFlight := hs.inFlight
    owner := hs.owner
    reads := by
      intro i errand rest hidle htodo hread
      obtain ⟨request, receive, hcall⟩ := Errand.exists_exchange_of_read hread c
      exact ⟨request, receive, hcall, leads_of_read hidle htodo hread hcall⟩
    answers := fun i request receive hstage hread reply documents =>
      .single (.answer hstage hread reply documents)
    releases := fun i hlock => hs.releases c hlock
    runs := fun i errand rest hidle htodo hfree => leads_run hidle htodo hfree
    goesOn := hs.done_or_moves c
    ends := wellFounded_moves.apply m
    atRest := hs.atRest_of_done }

def putAndGet : Fin 2 → List (Errand Json) := fun i =>
  if i = 0 then [.put "/a" (.ok .null)] else [.get "/a" some]

/-- The reading comes to its end while the write is in flight. -/
theorem writes_serialized_putAndGet : DocumentServer.empty.AtRest ∧
    ∃ m, Reaches .blank putAndGet .empty m ∧ (m.callers 0).stage.isWriting = true ∧
      (m.callers 1).Done ∧ m.Serialized .blank := by
  have hready : Leads .blank (start putAndGet .empty)
      ((({ (start putAndGet .empty).begin 0 [] (.locked (.put "/a" (.ok .null))) with
        lock := some 0 } : Sharing 2 Json)).proceed 0
          (.encoded ((Errand.put "/a" (.ok .null)).call .blank))) :=
    .step (.take rfl rfl rfl rfl) (.single (.encode rfl))
  have hwaiting := hready.tail (.send (i := 0) rfl)
  have hread := hwaiting.trans (leads_of_read (i := 1) rfl rfl rfl rfl (.lost "") .empty)
  exact ⟨DocumentServer.atRest_empty, _, hread, rfl, ⟨rfl, rfl⟩,
    writes_serialized DocumentServer.atRest_empty hread⟩

end Result
end Sharing
end Reconciler
