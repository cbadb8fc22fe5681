import Reconciler.Proofs.Batch.Applying
import Reconciler.Proofs.Batch.Independence

/-! Batches of which everything arrives: whatever an entry sends is stored, and the entry is told
so. A document server without scripts runs all batches that way. -/
namespace Reconciler
open DocumentServer (pathOf)

def DocumentServer.stored (s : DocumentServer) (path : String) : Option (List UInt8) :=
  s.documents.get? path

theorem DocumentServer.stored_arrive (s : DocumentServer) (request : Request) :
    (s.arrive request).stored = s.stored := by
  funext path
  rw [stored, stored, documents_arrive]

theorem Entry.Declares.place? {e : Entry} {k : Kind} {r : k.schema.Record} {c : Client}
    (h : e.Declares k r) :
    e.place? c = some (pathOf (c.baseUrl ++ k.path (k.schema.naturalKey r))) := by
  rw [Entry.place?, h.resource?]
  rfl

namespace Execution
variable {σ : Type} {x : Execution σ} {stored : σ → String → Option (List UInt8)} {w : σ}
  {m m' : Moment x.entries.length σ} {i : Fin x.entries.length}

/-- A step of a batch that loses nothing. If a request is answered, the answer has status 200 and
what the request carries is stored at its place. Nothing else changes what is stored. -/
inductive Delivers (x : Execution σ) (stored : σ → String → Option (List UInt8)) :
    Moment x.entries.length σ → Moment x.entries.length σ → Prop
  | quiet {m m' : Moment x.entries.length σ} (hmoves : x.Moves m m')
      (hasked : ∀ i, (m.turns i).isAsked = true → m'.turns i = m.turns i)
      (hstored : stored m'.world = stored m.world) : Delivers x stored m m'
  | answer {m : Moment x.entries.length σ} {i : Fin x.entries.length} {request} {receive} {answer}
      (hasked : m.turns i = .asked request receive)
      (hreply : (x.endpoint.answer request m.world).1 = .response ⟨200, answer⟩)
      (hstored : stored (x.endpoint.answer request m.world).2 =
        Function.update (stored m.world) (pathOf request.url) request.body) :
      Delivers x stored m { m with
        turns := Function.update m.turns i (.finished (receive (.response ⟨200, answer⟩)))
        world := (x.endpoint.answer request m.world).2 }

/-- A step that loses nothing is a step of the batch. -/
theorem Delivers.moves (h : x.Delivers stored m m') : x.Moves m m' := by
  cases h with
  | quiet hmoves => exact hmoves
  | answer hasked hreply =>
    rw [← hreply]
    exact .answer hasked

def Delivered (x : Execution σ) (stored : σ → String → Option (List UInt8)) (w : σ) :
    Moment x.entries.length σ → Prop :=
  Relation.ReflTransGen (x.Delivers stored) (x.start w)

theorem Delivered.reaches (h : x.Delivered stored w m) : x.Reaches w m :=
  Relation.ReflTransGen.mono (fun _ _ (hstep : x.Delivers stored _ _) => hstep.moves) _ _ h

theorem Delivered.finished (h : x.Delivered stored w m) (hstop : x.Stopped m)
    (i : Fin x.entries.length) : ∃ result, m.turns i = .finished result :=
  ((sound_of_reaches h.reaches).finished_of_stopped hstop).2 i

/-- What is stored changes with the answer to a request at most, and then at the place of that. -/
theorem Delivers.stored_eq (h : x.Delivers stored m m') : stored m'.world = stored m.world ∨
    ∃ i request receive, m.turns i = .asked request receive ∧
      stored m'.world = Function.update (stored m.world) (pathOf request.url) request.body := by
  cases h with
  | quiet _ _ hstored => exact .inl hstored
  | answer hasked _ hstored => exact .inr ⟨_, _, _, hasked, hstored⟩

/-- An entry with a request to make finishes by the answer to it. -/
theorem asked_of_finished (hs : Sound m) (h : x.Moves m m') {request : Request}
    {receive : Reply → Entry × Outcome} (hcall : x.call i = .exchange request receive)
    {result : Entry × Outcome} (hi : m'.turns i = .finished result) :
    m.turns i = .finished result ∨ m.turns i = .asked request receive := by
  cases h with
  | @settle j _ _ _ _ hsettled =>
    by_cases hj : i = j
    · subst hj
      rw [hcall] at hsettled
      cases hsettled
    · exact .inl (by simpa [hj] using hi)
  | @ask j _ _ =>
    by_cases hj : i = j
    · subst hj
      simp at hi
    · exact .inl (by simpa [hj] using hi)
  | @answer j _ _ hasked =>
    by_cases hj : i = j
    · subst hj
      have hsame := hcall.symm.trans (hs.asked _ _ _ hasked)
      cases hsame
      exact .inr hasked
    · exact .inl (by simpa [hj] using hi)
  | advance => exact .inl hi

/-- If nothing is lost, what such an entry has sent is stored when it finishes. -/
theorem Delivers.finish (hs : Sound m) (h : x.Delivers stored m m') {request : Request}
    {receive : Reply → Entry × Outcome} (hcall : x.call i = .exchange request receive)
    {result : Entry × Outcome} (hi : m'.turns i = .finished result) :
    m.turns i = .finished result ∨
      (∃ answer, result = receive (.response ⟨200, answer⟩)) ∧
      stored m'.world = Function.update (stored m.world) (pathOf request.url) request.body := by
  rcases asked_of_finished hs h.moves hcall hi with hbefore | hbefore
  · exact .inl hbefore
  · cases h with
    | quiet _ hasked _ =>
      rw [hasked i (by rw [hbefore]; rfl), hbefore] at hi
      cases hi
    | @answer j _ _ answer hasked _ hstored =>
      obtain rfl : i = j := by
        by_contra hj
        simp [hj, hbefore] at hi
      cases hbefore.symm.trans hasked
      simp only [Function.update_self, Turn.finished.injEq] at hi
      exact .inr ⟨⟨answer, hi.symm⟩, hstored⟩

section Applying
variable (hop : x.operation = .apply)
include hop

theorem call_apply {k : Kind} {r : k.schema.Record} (h : (x.entry i).Declares k r) : x.call i =
    .exchange (x.client.request .put (k.path (k.schema.naturalKey r)) (some (k.payload r)))
      fun reply => (x.entry i).after i
        (k.afterPut x.client (x.entry i).change r (x.entry i).state reply) := by
  rw [call, hop]
  exact Entry.run_apply h

theorem request_of_asked (hs : Sound m) {k : Kind} {r : k.schema.Record}
    (hd : (x.entry i).Declares k r) {request : Request} {receive : Reply → Entry × Outcome}
    (hasked : m.turns i = .asked request receive) :
    request = x.client.request .put (k.path (k.schema.naturalKey r)) (some (k.payload r)) := by
  have hcall := hs.asked i _ _ hasked
  rw [call_apply hop hd] at hcall
  cases hcall
  rfl

/-- Only entries that can be written send a request. -/
theorem writable_of_asked (hs : Sound m) {request : Request}
    {receive : Reply → Entry × Outcome} (hasked : m.turns i = .asked request receive) :
    (x.entry i).Writable := by
  by_contra h
  obtain ⟨failure, hsettled⟩ := Entry.step_apply_of_not_writable (c := x.client) h
  have hcall := hs.asked i _ _ hasked
  rw [call, hop, Entry.run_eq, hsettled] at hcall
  cases hcall

/-- An entry that declares a record finishes with its document stored. -/
theorem Delivers.apply (hs : Sound m) (h : x.Delivers stored m m') {k : Kind}
    {r : k.schema.Record} (hd : (x.entry i).Declares k r) {result : Entry × Outcome}
    (hi : m'.turns i = .finished result) : m.turns i = .finished result ∨
      result = (x.entry i).after i (.ok (x.entry i).change,
        (x.entry i).state.setId (identity k.tag (k.schema.naturalKey r))) ∧
      stored m'.world = Function.update (stored m.world)
        (pathOf (x.client.baseUrl ++ k.path (k.schema.naturalKey r))) (some (k.payload r)) := by
  rcases h.finish hs (call_apply hop hd) hi with hbefore | ⟨⟨answer, hresult⟩, hstored⟩
  · exact .inl hbefore
  · rw [Kind.afterPut_stored] at hresult
    exact .inr ⟨hresult, hstored⟩

end Applying

section DocumentServer
variable {x : Execution DocumentServer} {w : DocumentServer}
  {m m' : Moment x.entries.length DocumentServer}

theorem asked_of_update_waiting {i : Fin x.entries.length} (hwaiting : m.turns i = .waiting)
    (t : Turn) (j : Fin x.entries.length) (hj : (m.turns j).isAsked = true) :
    Function.update m.turns i t j = m.turns j := by
  refine Function.update_of_ne ?_ ..
  rintro rfl
  rw [hwaiting] at hj
  cases hj

/-- Where no script stands in the way, a document server loses nothing. -/
theorem delivers_of_moves (hserver : x.endpoint = DocumentServer.endpoint)
    (hop : x.operation = .apply) (hs : Sound m)
    (hfree : ∀ i p, x.place? i = some p → m.world.Unscripted p) (h : x.Moves m m') :
    x.Delivers DocumentServer.stored m m' ∧ m'.world.scripts = m.world.scripts := by
  have hmoves := h
  cases h with
  | settle _ hwaiting =>
    exact ⟨.quiet hmoves (asked_of_update_waiting hwaiting _) rfl, rfl⟩
  | @ask i request _ _ hwaiting =>
    have harrive : x.endpoint.arrive request m.world = m.world.arrive request := by
      rw [hserver]
      rfl
    refine ⟨.quiet hmoves (asked_of_update_waiting hwaiting _) ?_, ?_⟩
    · dsimp only
      rw [harrive, DocumentServer.stored_arrive]
    · dsimp only
      rw [harrive, DocumentServer.scripts_arrive]
  | @answer i request receive hasked =>
    obtain ⟨k, r, hd⟩ := writable_of_asked hop hs hasked
    have hrequest := request_of_asked hop hs hd hasked
    have heffect : m.world.effect request =
        (DocumentServer.ok (k.payload r), some (k.payload r)) := by
      rw [hrequest]
      exact DocumentServer.effect_put (hfree i _ hd.place?) _
    have hreply : (x.endpoint.answer request m.world).1 = .response ⟨200, k.payload r⟩ := by
      rw [hserver, DocumentServer.answer_endpoint_fst, heffect]
      rfl
    refine ⟨?_, ?_⟩
    · rw [hreply]
      refine .answer hasked hreply (funext fun p => ?_)
      rw [hserver, DocumentServer.stored, DocumentServer.get?_answer_endpoint, heffect,
        Function.update_apply, hrequest]
      rfl
    · rw [hserver]
      exact DocumentServer.scripts_answer_endpoint ..
  | advance => exact ⟨.quiet hmoves (fun _ _ => rfl) rfl, rfl⟩

/-- A document server loses nothing of what it is asked to store. -/
theorem delivered_of_reaches (hserver : x.endpoint = DocumentServer.endpoint)
    (hop : x.operation = .apply) (hfree : ∀ i p, x.place? i = some p → w.Unscripted p)
    (h : x.Reaches w m) : x.Delivered DocumentServer.stored w m ∧ m.world.scripts = w.scripts := by
  induction h with
  | refl => exact ⟨.refl, rfl⟩
  | @tail m₀ m₁ hbefore hstep ih =>
    obtain ⟨hdelivered, hscripts⟩ := ih
    have hfree₀ : ∀ i p, x.place? i = some p → m₀.world.Unscripted p := by
      intro i p hp method
      rw [hscripts]
      exact hfree i p hp method
    obtain ⟨hdelivers, hsame⟩ :=
      delivers_of_moves hserver hop (sound_of_reaches hbefore) hfree₀ hstep
    exact ⟨hdelivered.tail hdelivers, hsame.trans hscripts⟩

end DocumentServer
end Execution
end Reconciler
