import Reconciler.Proofs.Api.DocumentServer
import Reconciler.Proofs.Batch.Entry
import Reconciler.Proofs.Batch.Sequential
import Reconciler.Proofs.Resource.Paths

/-! Entries of different resources do not meet. Against a document server each entry finds at its
own place what was there before the batch, so all schedules of a batch come to the same. -/
namespace Reconciler
open DocumentServer (pathOf)

namespace DocumentServer
variable (s : DocumentServer) (request : Request)

theorem answer_endpoint_fst : (endpoint.answer request s).1 = (s.effect request).1 := reply_fst ..

theorem scripts_answer_endpoint : (endpoint.answer request s).2.scripts = s.scripts := by
  simp [endpoint]

theorem get?_answer_endpoint (p : String) : (endpoint.answer request s).2.documents.get? p =
    if p = pathOf request.url then (s.effect request).2 else s.documents.get? p := by
  simp [endpoint, get?_reply]

end DocumentServer

namespace Entry

theorem isPathSegment_of_resource? {e : Entry} {k : Kind} {key : String}
    (h : e.resource? = some (k, key)) : isPathSegment key = true := by
  unfold resource? at h
  cases hk : Kind.ofTag? e.kind with
  | none => simp [hk] at h
  | some l =>
    cases hr : l.keyed e.state with
    | error failure => simp [hk, hr] at h
    | ok record =>
      simp only [hk, hr, Option.some.injEq, Prod.mk.injEq] at h
      rw [← h.2]
      exact (Kind.keyed_eq_ok_iff.1 hr).2.2

def place? (c : Client) (e : Entry) : Option String :=
  e.resource?.map fun resource => pathOf (c.baseUrl ++ resource.1.path resource.2)

/-- An entry asks for nothing but its own resource. -/
theorem place?_of_request {c : Client} {op : Operation} {e : Entry} {request : Request}
    (h : (e.step c op).request? = some request) : e.place? c = some (pathOf request.url) := by
  obtain ⟨k, key, hresource, -, hurl⟩ := url_of_request h
  rw [place?, hresource, hurl]
  rfl

/-- Entries at one place are entries of one resource. -/
theorem resource?_eq_of_place? {c : Client} {a b : Entry} {p : String} (ha : a.place? c = some p)
    (hb : b.place? c = some p) : ∃ resource, a.resource? = some resource ∧
      b.resource? = some resource := by
  obtain ⟨⟨k, x⟩, hk, hp⟩ := Option.map_eq_some_iff.1 ha
  obtain ⟨⟨l, y⟩, hl, hq⟩ := Option.map_eq_some_iff.1 hb
  obtain ⟨rfl, rfl⟩ := Kind.pathOf_inj (isPathSegment_of_resource? hk)
    (isPathSegment_of_resource? hl) (hp.trans hq.symm)
  exact ⟨(k, x), hk, hl⟩

/-- Where no two entries are of one resource, no two of them are at one place. -/
theorem eq_of_place? {c : Client} {p : String} {entries : List Entry}
    (h : (entries.filterMap resource?).Nodup) {i j : Fin entries.length}
    (hi : entries[i].place? c = some p) (hj : entries[j].place? c = some p) : i = j := by
  obtain ⟨resource, hri, hrj⟩ := resource?_eq_of_place? hi hj
  have hpairs := List.pairwise_iff_get.1 (List.pairwise_filterMap.1 h)
  rcases lt_trichotomy i j with hlt | heq | hgt
  · exact absurd rfl (hpairs i j hlt _ hri _ hrj)
  · exact heq
  · exact absurd rfl (hpairs j i hgt _ hrj _ hri)

end Entry

/-- A batch of one entry fills the one slot with what the step of the entry comes to. -/
theorem Batch.runSlots_singleton {σ : Type} (server : Server σ) (c : Client) (op : Operation)
    (e : Entry) (w : σ) : (Batch.runSlots server c op [0] [e] w).1 =
      [⟨⟨e.kind, ((e.step c op).run server w).1.2⟩,
        some (e.after 0 ((e.step c op).run server w).1).2⟩] := by
  have hturns : Batch.turns op [e] [0] = [0] := by
    rcases Nat.le_one_iff_eq_zero_or_eq_one.1 (op.phase_le_one e.kind) with h | h <;>
      simp [Batch.turns, h]
  simp only [Batch.runSlots, hturns, Batch.visit, List.map_cons, List.map_nil, List.foldl_cons,
    List.foldl_nil, List.getElem?_cons_zero, Entry.run_eq, Call.run_map]
  rfl

namespace Execution
variable {x : Execution DocumentServer} {w : DocumentServer}
  {m m' : Moment x.entries.length DocumentServer} {i : Fin x.entries.length}

def place? (x : Execution DocumentServer) (i : Fin x.entries.length) : Option String :=
  (x.entry i).place? x.client

def Scattered (x : Execution DocumentServer) : Prop :=
  ∀ i j p, x.place? i = some p → x.place? j = some p → i = j

theorem scattered_of_nodup (h : (x.entries.filterMap Entry.resource?).Nodup) : x.Scattered :=
  fun _ _ _ hi hj => Entry.eq_of_place? h hi hj

/-- An entry that has the server to itself. -/
def alone (x : Execution DocumentServer) (w : DocumentServer) (i : Fin x.entries.length) :
    (Entry × Outcome) × DocumentServer :=
  (x.call i).run DocumentServer.server w

section Alone
variable {request : Request} {receive : Reply → Entry × Outcome}

theorem alone_of_settled {result : Entry × Outcome} (hcall : x.call i = .settled result) :
    x.alone w i = (result, w) := by
  rw [alone, hcall, Call.run_settled]

theorem alone_fst_of_exchange (hcall : x.call i = .exchange request receive) :
    (x.alone w i).1 = receive (w.effect request).1 := by
  rw [alone, hcall]
  exact congrArg receive (DocumentServer.answer_fst ..)

theorem alone_snd_of_exchange (hcall : x.call i = .exchange request receive) :
    (x.alone w i).2.documents.get? (pathOf request.url) = (w.effect request).2 := by
  rw [alone, hcall]
  exact (DocumentServer.get?_answer ..).trans (if_pos rfl)

theorem place?_of_call (hcall : x.call i = .exchange request receive) :
    x.place? i = some (pathOf request.url) := by
  have hrequest : (x.call i).request? = some request := by rw [hcall, Call.request?]
  rw [call, Entry.run_eq, Call.request?_map] at hrequest
  exact Entry.place?_of_request hrequest

end Alone

/-- What holds whenever a batch runs against a document server that was in state `w`: the entries
that have finished came to what they come to alone, and so did the documents at their places. At
all other places nothing has happened yet. -/
structure Apart (w : DocumentServer) (m : Moment x.entries.length DocumentServer) : Prop where
  scripts : m.world.scripts = w.scripts
  result : ∀ i result, m.turns i = .finished result → result = (x.alone w i).1
  own : ∀ i p, x.place? i = some p → (∃ result, m.turns i = .finished result) →
    m.world.documents.get? p = (x.alone w i).2.documents.get? p
  others : ∀ p, (∀ i result, x.place? i = some p → m.turns i ≠ .finished result) →
    m.world.documents.get? p = w.documents.get? p

theorem apart_start : Apart w (x.start w) where
  scripts := rfl
  result _ _ h := by cases h
  own _ _ _ h := by
    obtain ⟨_, h⟩ := h
    cases h
  others _ _ := rfl

theorem Apart.of_finished_iff (h : Apart w m) (hscripts : m'.world.scripts = m.world.scripts)
    (hdocuments : m'.world.documents = m.world.documents)
    (hturns : ∀ i result, m'.turns i = .finished result ↔ m.turns i = .finished result) :
    Apart w m' where
  scripts := hscripts.trans h.scripts
  result i result hi := h.result i result ((hturns i result).1 hi)
  own i p hp hi := by
    simp only [hturns] at hi
    rw [hdocuments]
    exact h.own i p hp hi
  others p hp := by
    simp only [ne_eq, hturns] at hp
    rw [hdocuments]
    exact h.others p hp

/-- Before an entry has finished, its place is as it was before the batch. -/
theorem Apart.untouched (h : Apart w m) (hx : x.Scattered) {p : String}
    (hp : x.place? i = some p) (hi : ∀ result, m.turns i ≠ .finished result) :
    m.world.documents.get? p = w.documents.get? p := by
  refine h.others p fun j result hj => ?_
  rw [hx j i p hj hp]
  exact hi result

/-- An entry finishes as it does alone, and only its own place is touched. -/
theorem Apart.finish (h : Apart w m) (hx : x.Scattered) (i : Fin x.entries.length)
    (begun : List (Fin x.entries.length × Option Request)) (w' : DocumentServer)
    (hscripts : w'.scripts = m.world.scripts)
    (hown : ∀ p, x.place? i = some p →
      w'.documents.get? p = (x.alone w i).2.documents.get? p)
    (hothers : ∀ p, x.place? i ≠ some p → w'.documents.get? p = m.world.documents.get? p) :
    Apart w { m with
      turns := Function.update m.turns i (.finished (x.alone w i).1)
      begun := begun
      world := w' } where
  scripts := hscripts.trans h.scripts
  result j result hj := by
    by_cases hji : j = i
    · subst hji
      simpa using hj.symm
    · exact h.result j result (by simpa [hji] using hj)
  own j p hp hj := by
    by_cases hji : j = i
    · subst hji
      exact hown p hp
    · rw [hothers p fun hi => hji (hx j i p hp hi)]
      exact h.own j p hp (by simpa [hji] using hj)
  others p hp := by
    have hi : x.place? i ≠ some p := fun hi => hp i _ hi (Function.update_self ..)
    rw [hothers p hi]
    refine h.others p fun j result hj => ?_
    have hji : j ≠ i := fun hji => hi (hji ▸ hj)
    simpa [hji] using hp j result hj

/-- The request of an entry comes to what it comes to without the others. -/
theorem Apart.effect_eq (h : Apart w m) (hx : x.Scattered) {request : Request}
    {receive : Reply → Entry × Outcome} (hcall : x.call i = .exchange request receive)
    (hi : ∀ result, m.turns i ≠ .finished result) : m.world.effect request = w.effect request :=
  DocumentServer.effect_congr h.scripts (h.untouched hx (place?_of_call hcall) hi)

/-- A step keeps entries at different places apart. -/
theorem Apart.moves (h : Apart w m) (hs : Sound m) (hx : x.Scattered)
    (hserver : x.endpoint = DocumentServer.endpoint) (hstep : x.Moves m m') : Apart w m' := by
  cases hstep with
  | @settle i result _ hwaiting _ hcall =>
    -- Without a request the place stays untouched, and alone it would have stayed so too.
    have hfinish := h.finish hx i (m.begun ++ [(i, none)]) m.world rfl
    rw [alone_of_settled hcall] at hfinish
    refine hfinish (fun p hp => ?_) fun _ _ => rfl
    exact h.untouched hx hp (by simp [hwaiting])
  | @ask i request receive _ hwaiting _ _ _ =>
    refine h.of_finished_iff ?_ ?_ ?_
    · rw [hserver]
      exact DocumentServer.scripts_arrive ..
    · rw [hserver]
      exact DocumentServer.documents_arrive ..
    · intro j result
      by_cases hj : j = i
      · subst hj
        simp [hwaiting]
      · simp [hj]
  | @answer i request receive hasked =>
    have hcall := hs.asked i request receive hasked
    have hplace := place?_of_call hcall
    have heffect := h.effect_eq hx hcall (by simp [hasked])
    rw [hserver, DocumentServer.answer_endpoint_fst, heffect, ← alone_fst_of_exchange hcall]
    refine h.finish hx i m.begun _ (DocumentServer.scripts_answer_endpoint ..) ?_ ?_
    · intro p hp
      obtain rfl : pathOf request.url = p := Option.some.inj (hplace.symm.trans hp)
      rw [DocumentServer.get?_answer_endpoint, if_pos rfl, alone_snd_of_exchange hcall, heffect]
    · intro p hp
      have hne : p ≠ pathOf request.url := fun heq => hp (heq ▸ hplace)
      rw [DocumentServer.get?_answer_endpoint, if_neg hne]
  | advance => exact h.of_finished_iff rfl rfl fun _ _ => Iff.rfl

/-- So entries at different places are apart at every moment of a schedule. -/
theorem apart_of_reaches (hx : x.Scattered) (hserver : x.endpoint = DocumentServer.endpoint)
    (h : x.Reaches w m) : Apart w m := by
  induction h with
  | refl => exact apart_start
  | tail hreaches hstep ih => exact ih.moves (sound_of_reaches hreaches) hx hserver hstep

/-- Every schedule ends with all entries apart from each other. -/
theorem ends_apart (hx : x.Scattered) (hserver : x.endpoint = DocumentServer.endpoint)
    (w : DocumentServer) : x.Ends (fun m =>
      Apart w m ∧ ∀ i, ∃ result, m.turns i = .finished result) (x.start w) :=
  ends_of_leads fun _ hm hstop =>
    ⟨apart_of_reaches hx hserver hm, ((sound_of_reaches hm).finished_of_stopped hstop).2⟩

section Finished
variable (h : Apart w m) (hfinished : ∀ i, ∃ result, m.turns i = .finished result)
include h hfinished

/-- However a batch was scheduled, each slot is filled as its entry alone fills it. -/
theorem slots_eq_alone :
    x.slots m = List.ofFn fun i => ⟨(x.alone w i).1.1, some (x.alone w i).1.2⟩ := by
  refine congrArg List.ofFn (funext fun i => ?_)
  obtain ⟨result, hi⟩ := hfinished i
  rw [hi, h.result i result hi]
  rfl

theorem getElem?_slots_eq_alone (i : Fin x.entries.length) :
    let step := (((x.entry i).step x.client x.operation).run DocumentServer.server w).1
    (x.slots m)[i]? = some ⟨⟨(x.entry i).kind, step.2⟩, some ((x.entry i).after i step).2⟩ := by
  have halone : (x.alone w i).1 = (x.entry i).after i
      (((x.entry i).step x.client x.operation).run DocumentServer.server w).1 := by
    rw [alone, call, Entry.run_eq, Call.run_map]
  obtain ⟨result, hi⟩ := hfinished i
  rw [h.result i result hi, halone] at hi
  exact getElem?_slots.trans (by rw [hi]; rfl)

/-- Finished batches leave the same documents, whatever their schedules. -/
theorem documents_eq (h' : Apart w m') (hfinished' : ∀ i, ∃ result, m'.turns i = .finished result) :
    m.world.documents = m'.world.documents := by
  refine Ascending.ext_get? _ _ fun p => ?_
  by_cases hp : ∃ i, x.place? i = some p
  · obtain ⟨i, hi⟩ := hp
    rw [h.own i p hi (hfinished i), h'.own i p hi (hfinished' i)]
  · rw [not_exists] at hp
    rw [h.others p fun i _ hi => absurd hi (hp i), h'.others p fun i _ hi => absurd hi (hp i)]

end Finished

/-- The end of a batch, as its entries would have it: report, entries and documents are those of
the batch that runs in the order of its entries, and each entry is where it would be alone. -/
structure Agrees (x : Execution DocumentServer) (w : DocumentServer)
    (m : Moment x.entries.length DocumentServer) : Prop where
  result : (Batch.report (x.slots m), Batch.remaining x.operation (x.slots m)) =
    (Batch.run DocumentServer.server x.client x.operation x.entries w).1
  documents : m.world.documents =
    (Batch.run DocumentServer.server x.client x.operation x.entries w).2.documents
  alone : ∀ i : Fin x.entries.length, ∃ entry outcome outcome',
    (x.slots m)[i]? = some ⟨entry, some outcome⟩ ∧
    (Batch.runSlots DocumentServer.server x.client x.operation [0] [x.entry i] w).1 =
      [⟨entry, some outcome'⟩] ∧
    outcome.result = outcome'.result

/-- Where no two entries declare one resource, schedules make no difference: whatever documents and
scripts a server starts with, every schedule ends, and ends the same. -/
theorem schedules_agree (hserver : x.endpoint = DocumentServer.endpoint)
    (hdistinct : (x.entries.filterMap Entry.resource?).Nodup) (w : DocumentServer) :
    x.Ends (x.Agrees w) (x.start w) := by
  have hends := ends_apart (scattered_of_nodup hdistinct) hserver w
  obtain ⟨m', ⟨hapart', hfinished'⟩, hrun⟩ := hends.runSlots (.refl _)
  rw [hserver, DocumentServer.server_endpoint] at hrun
  refine hends.imp fun m ⟨hapart, hfinished⟩ => ?_
  have hslots : x.slots m = x.slots m' :=
    (slots_eq_alone hapart hfinished).trans (slots_eq_alone hapart' hfinished').symm
  refine ⟨?_, ?_, fun i => ?_⟩
  · rw [hslots, Batch.run, Batch.runInOrder, ← hrun]
  · rw [Batch.run, Batch.runInOrder, ← hrun]
    exact documents_eq hapart hfinished hapart' hfinished'
  · exact ⟨_, _, _, getElem?_slots_eq_alone hapart hfinished i, Batch.runSlots_singleton .., rfl⟩

def monitored : Execution DocumentServer where
  endpoint := DocumentServer.endpoint
  client := .blank
  operation := .apply
  jobs := 0
  entries := [⟨"snmp", Kind.snmp.schema.project Snmp.monitored .empty⟩,
    ⟨"node", DeclaredState.empty.set "node_id" (.string "abc123")⟩]

/-- They share a key and are different resources all the same. Here the node cannot be written. -/
theorem schedules_agree_monitored :
    monitored.endpoint = DocumentServer.endpoint ∧
    (monitored.entries.filterMap Entry.resource?).Nodup ∧
    monitored.Ends (monitored.Agrees (DocumentServer.empty.disconnect .put "/v2/node/abc123"))
      (monitored.start (DocumentServer.empty.disconnect .put "/v2/node/abc123")) :=
  ⟨rfl, by decide, schedules_agree rfl (by decide) _⟩

end Execution
end Reconciler
