import Reconciler.Proofs.Api.DocumentServer
import Reconciler.Proofs.Batch.Execution

/-! Nodes before what is attached to them, and after it when they go. Every schedule gives each
entry one turn, and sends the requests for nodes on their side of all others. -/
namespace Reconciler

/-- A log that a server keeps of the requests that arrive. -/
structure Endpoint.Logs {σ : Type} (e : Endpoint σ) (log : σ → List Request) : Prop where
  arrive : ∀ request w, log (e.arrive request w) = log w ++ [request]
  answer : ∀ request w, log (e.answer request w).2 = log w

theorem DocumentServer.logs_requests : endpoint.Logs requests where
  arrive request s := requests_arrive s request
  answer request s := by simp [endpoint]

namespace Operation

theorem phase_le_phase_iff {op : Operation} {a b : String} : op.phase a ≤ op.phase b ↔
    if op = .destroy then a = Kind.node.tag → b = Kind.node.tag
    else b = Kind.node.tag → a = Kind.node.tag := by
  unfold phase
  by_cases ha : a = Kind.node.tag <;> by_cases hb : b = Kind.node.tag <;> cases op <;>
    simp [ha, hb]

end Operation

namespace Execution
variable {σ : Type} {x : Execution σ} {w : σ} {m m' : Moment x.entries.length σ}

def IsNode (i : Fin x.entries.length) : Prop := (x.entry i).kind = Kind.node.tag

/-- A step logs the request that it sends, if it sends one. -/
theorem log_moves {log : σ → List Request} (hlog : x.endpoint.Logs log) (h : x.Moves m m')
    {before : List Request} (hm : log m.world = before ++ m.requests.map Prod.snd) :
    log m'.world = before ++ m'.requests.map Prod.snd := by
  cases h with
  | settle => simpa [Moment.requests] using hm
  | ask => simp [Moment.requests, hlog.arrive, hm]
  | answer => exact (hlog.answer ..).trans hm
  | advance => exact hm

/-- The requests of a batch are those that a server sees arrive, in that order. -/
theorem log_reaches {log : σ → List Request} (hlog : x.endpoint.Logs log) (h : x.Reaches w m) :
    log m.world = log w ++ m.requests.map Prod.snd := by
  induction h with
  | refl => exact (List.append_nil _).symm
  | tail _ hstep ih => exact log_moves hlog hstep ih

theorem Sound.nodup_requests (hs : Sound m) : (m.requests.map Prod.fst).Nodup := by
  refine hs.once.sublist ?_
  unfold Moment.requests
  induction m.begun with
  | nil => exact .slnil
  | cons a begun ih =>
    obtain ⟨i, request⟩ := a
    cases request with
    | none => exact ih.cons _
    | some request => exact ih.cons_cons _

/-- Requests are sent phase by phase. -/
theorem Sound.ordered_requests (hs : Sound m) :
    m.requests.Pairwise fun a b => x.phase a.1 ≤ x.phase b.1 := by
  refine List.pairwise_filterMap.2 (hs.ordered.imp ?_)
  intro a b hle c hc d hd
  obtain ⟨_, _, rfl⟩ := Option.map_eq_some_iff.1 hc
  obtain ⟨_, _, rfl⟩ := Option.map_eq_some_iff.1 hd
  exact hle

/-- Each entry has begun once. -/
theorem Sound.perm_of_stopped (hs : Sound m) (hstop : x.Stopped m) :
    (m.begun.map Prod.fst).Perm (List.finRange x.entries.length) := by
  refine (List.perm_ext_iff_of_nodup hs.once (List.nodup_finRange _)).2 fun i => ?_
  obtain ⟨result, hi⟩ := (hs.finished_of_stopped hstop).2 i
  simp [hs.mem_begun, hi]

/-- In the end the requests are those that the entries have to make. -/
theorem Sound.mem_requests_iff (hs : Sound m) (hstop : x.Stopped m) {i : Fin x.entries.length}
    {request : Request} : (i, request) ∈ m.requests ↔ (x.call i).request? = some request := by
  constructor
  · intro h
    obtain ⟨⟨j, sent⟩, hmem, hsent⟩ := List.mem_filterMap.1 h
    obtain ⟨request, rfl, ⟨⟩⟩ := Option.map_eq_some_iff.1 hsent
    exact hs.request _ hmem
  · intro h
    have hi : i ∈ m.begun.map Prod.fst := by
      rw [(hs.perm_of_stopped hstop).mem_iff]
      exact List.mem_finRange i
    obtain ⟨⟨_, sent⟩, hmem, rfl⟩ := List.mem_map.1 hi
    have hsent : sent = some request := (hs.request _ hmem).symm.trans h
    exact List.mem_filterMap.2 ⟨_, hmem, by rw [hsent]; rfl⟩

/-- Under every schedule each entry has exactly one turn, in which it makes its own request or none.
Where nodes are written or read, their requests arrive before those for all other kinds; where they
are removed, after them. How requests are answered makes no difference. -/
theorem nodes_apart (x : Execution σ) (w : σ) : x.Ends (fun m =>
    (m.begun.map Prod.fst).Perm (List.finRange x.entries.length) ∧
    (m.requests.map Prod.fst).Nodup ∧
    (∀ i request, (i, request) ∈ m.requests ↔ (x.call i).request? = some request) ∧
    (∀ log, x.endpoint.Logs log → log m.world = log w ++ m.requests.map Prod.snd) ∧
    (x.operation ≠ .destroy → m.requests.Pairwise fun a b => x.IsNode b.1 → x.IsNode a.1) ∧
    (x.operation = .destroy → m.requests.Pairwise fun a b => x.IsNode a.1 → x.IsNode b.1))
    (x.start w) := by
  refine ends_of_leads fun m hm hstop => ?_
  have hs := sound_of_reaches hm
  refine ⟨hs.perm_of_stopped hstop, hs.nodup_requests,
    fun _ _ => hs.mem_requests_iff hstop, fun log hlog => log_reaches hlog hm, ?_, ?_⟩
  · intro hop
    refine hs.ordered_requests.imp fun hle => ?_
    exact (if_neg hop).mp (Operation.phase_le_phase_iff.1 hle)
  · intro hop
    refine hs.ordered_requests.imp fun hle => ?_
    exact (if_pos hop).mp (Operation.phase_le_phase_iff.1 hle)

end Execution
end Reconciler
