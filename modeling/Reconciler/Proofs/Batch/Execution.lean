import Mathlib.Data.List.FinRange
import Reconciler.Batch.Run
import Reconciler.Proofs.Api.Sharing

/-! A batch as it runs on several workers, one small step at a time. Entries of a phase take their
turns in any order and wait for their answers side by side; a schedule is a run of such steps. -/
namespace Reconciler

/-- A server whose answer to a request may come some time after the request has arrived. -/
structure Endpoint (σ : Type) where
  arrive : Request → σ → σ
  answer : Request → σ → Reply × σ

def Endpoint.server {σ : Type} (e : Endpoint σ) : Server σ :=
  ⟨fun request w => e.answer request (e.arrive request w)⟩

def DocumentServer.endpoint : Endpoint DocumentServer where
  arrive request s := s.arrive request
  answer request s := ((s.reply request).1, (s.reply request).2.depart request)

theorem DocumentServer.server_endpoint : endpoint.server = server := rfl

/-- How far a batch has come with one entry. -/
inductive Turn
  | waiting
  | asked (request : Request) (receive : Reply → Entry × Outcome)
  | finished (result : Entry × Outcome)

namespace Turn

def isAsked : Turn → Bool
  | asked .. => true
  | waiting | finished _ => false

def isWriting : Turn → Bool
  | asked request _ => request.method.isMutating
  | waiting | finished _ => false

def effort : Turn → Nat
  | waiting => 2
  | asked .. => 1
  | finished _ => 0

def slot (e : Entry) : Turn → Slot
  | finished (entry, outcome) => ⟨entry, some outcome⟩
  | waiting | asked .. => ⟨e, none⟩

end Turn

/-- A running batch of `n` entries. -/
structure Moment (n : Nat) (σ : Type) where
  phase : Nat
  turns : Fin n → Turn
  /-- The turns in the order in which they began, each with the request that it sends, if any. -/
  begun : List (Fin n × Option Request)
  world : σ

namespace Moment
variable {n : Nat} {σ : Type} (m : Moment n σ)

def inFlight : Nat := (Finset.univ.filter fun i => (m.turns i).isAsked = true).card

def requests : List (Fin n × Request) := m.begun.filterMap fun a => a.2.map (a.1, ·)

def effort : Nat := ∑ i, (m.turns i).effort + (1 - m.phase)

end Moment

theorem Operation.phase_le_one (op : Operation) (tag : String) : op.phase tag ≤ 1 := by
  unfold phase
  cases op <;> dsimp only <;> split <;> decide

structure Execution (σ : Type) where
  endpoint : Endpoint σ
  client : Client
  operation : Operation
  jobs : Nat
  entries : List Entry

namespace Execution
variable {σ : Type} (x : Execution σ)

def entry (i : Fin x.entries.length) : Entry := x.entries[i]

def phase (i : Fin x.entries.length) : Nat := x.operation.phase (x.entry i).kind

def call (i : Fin x.entries.length) : Call (Entry × Outcome) :=
  (x.entry i).run x.client x.operation i

def slots (m : Moment x.entries.length σ) : List Slot :=
  List.ofFn fun i => (m.turns i).slot (x.entry i)

def start (w : σ) : Moment x.entries.length σ := ⟨0, fun _ => .waiting, [], w⟩

/-- One step of one worker. Each worker has one turn at a time, one request that writes is in
flight at a time, and the second phase begins when all of the first has finished. -/
inductive Moves : Moment x.entries.length σ → Moment x.entries.length σ → Prop
  | settle {m} {i} {result} (hphase : x.phase i = m.phase) (hwaiting : m.turns i = .waiting)
      (hfree : m.inFlight < max x.jobs 1) (hcall : x.call i = .settled result) :
      Moves m { m with
        turns := Function.update m.turns i (.finished result)
        begun := m.begun ++ [(i, none)] }
  | ask {m} {i} {request} {receive} (hphase : x.phase i = m.phase)
      (hwaiting : m.turns i = .waiting) (hfree : m.inFlight < max x.jobs 1)
      (hlock : request.method.isMutating = true → ∀ j, (m.turns j).isWriting = false)
      (hcall : x.call i = .exchange request receive) :
      Moves m { m with
        turns := Function.update m.turns i (.asked request receive)
        begun := m.begun ++ [(i, some request)]
        world := x.endpoint.arrive request m.world }
  | answer {m} {i} {request} {receive} (hasked : m.turns i = .asked request receive) :
      Moves m { m with
        turns := Function.update m.turns i
          (.finished (receive (x.endpoint.answer request m.world).1))
        world := (x.endpoint.answer request m.world).2 }
  | advance {m} (hphase : m.phase = 0)
      (hfirst : ∀ i, x.phase i = 0 → ∃ result, m.turns i = .finished result) :
      Moves m { m with phase := 1 }

def Leads : Moment x.entries.length σ → Moment x.entries.length σ → Prop :=
  Relation.ReflTransGen x.Moves

def Reaches (w : σ) (m : Moment x.entries.length σ) : Prop := x.Leads (x.start w) m

def Stopped (m : Moment x.entries.length σ) : Prop := ∀ m', ¬ x.Moves m m'

/-- Whatever the schedule, the batch comes to a stop, and what is claimed of it holds there. -/
inductive Ends (P : Moment x.entries.length σ → Prop) : Moment x.entries.length σ → Prop
  | intro {m} (hstop : x.Stopped m → P m) (hmoves : ∀ m', x.Moves m m' → Ends P m') : Ends P m

section Invariant
variable {x} {w : σ} {m m' : Moment x.entries.length σ} {i : Fin x.entries.length}

theorem phase_le_one (i : Fin x.entries.length) : x.phase i ≤ 1 := Operation.phase_le_one ..

/-- What holds whenever a batch runs: who has begun is on record once, phase by phase, and turns
are of the entries they belong to. -/
structure Sound (m : Moment x.entries.length σ) : Prop where
  phase_le : m.phase ≤ 1
  mem_begun : ∀ i, i ∈ m.begun.map Prod.fst ↔ m.turns i ≠ .waiting
  once : (m.begun.map Prod.fst).Nodup
  request : ∀ a ∈ m.begun, (x.call a.1).request? = a.2
  reached : ∀ a ∈ m.begun, x.phase a.1 ≤ m.phase
  ordered : m.begun.Pairwise fun a b => x.phase a.1 ≤ x.phase b.1
  asked : ∀ i request receive, m.turns i = .asked request receive →
    x.call i = .exchange request receive
  earlier : ∀ i, x.phase i < m.phase → ∃ result, m.turns i = .finished result

theorem sound_start : Sound (x.start w) where
  phase_le := Nat.zero_le _
  mem_begun := by simp [start]
  once := .nil
  request := by simp [start]
  reached := by simp [start]
  ordered := .nil
  asked _ _ _ h := by cases h
  earlier _ h := by cases h

/-- An entry of the current phase begins its turn. -/
theorem Sound.begin (hs : Sound m) (hphase : x.phase i = m.phase) (hwaiting : m.turns i = .waiting)
    {t : Turn} (ht : t ≠ .waiting)
    (hasked : ∀ request receive, t = .asked request receive →
      x.call i = .exchange request receive) (w' : σ) :
    Sound { m with
      turns := Function.update m.turns i t
      begun := m.begun ++ [(i, (x.call i).request?)]
      world := w' } where
  phase_le := hs.phase_le
  mem_begun j := by
    rw [List.map_append, List.mem_append, hs.mem_begun]
    by_cases hj : j = i
    · subst hj
      simp [ht]
    · simp [hj]
  once := by
    have hnew : i ∉ m.begun.map Prod.fst := fun h => (hs.mem_begun i).1 h hwaiting
    rw [List.map_append]
    exact hs.once.append (List.nodup_singleton i) (by simpa using hnew)
  request a ha := by
    rcases List.mem_append.1 ha with ha | ha
    · exact hs.request a ha
    · rw [List.mem_singleton.1 ha]
  reached a ha := by
    rcases List.mem_append.1 ha with ha | ha
    · exact hs.reached a ha
    · rw [List.mem_singleton.1 ha]
      exact hphase.le
  ordered := by
    refine List.pairwise_append.2 ⟨hs.ordered, List.pairwise_singleton _ _, ?_⟩
    intro a ha b hb
    rw [List.mem_singleton.1 hb]
    exact (hs.reached a ha).trans hphase.ge
  asked j request receive h := by
    by_cases hj : j = i
    · subst hj
      exact hasked request receive (by simpa using h)
    · exact hs.asked j request receive (by simpa [hj] using h)
  earlier j hj := by
    have hne : j ≠ i := by
      rintro rfl
      exact absurd hphase (Nat.ne_of_lt hj)
    simpa [hne] using hs.earlier j hj

/-- A step of a worker keeps a batch sound. -/
theorem Sound.moves (hs : Sound m) (h : x.Moves m m') : Sound m' := by
  cases h with
  | @settle i result hphase hwaiting _ hcall =>
    have hrequest : (x.call i).request? = none := by rw [hcall, Call.request?]
    rw [← hrequest]
    exact hs.begin (t := .finished result) hphase hwaiting nofun nofun _
  | @ask i request receive hphase hwaiting _ _ hcall =>
    have hrequest : (x.call i).request? = some request := by rw [hcall, Call.request?]
    rw [← hrequest]
    refine hs.begin (t := .asked request receive) hphase hwaiting nofun ?_ _
    rintro _ _ ⟨⟩
    exact hcall
  | @answer i request receive hasked =>
    exact {
      hs with
      mem_begun := by
        intro j
        by_cases hj : j = i
        · subst hj
          simpa [hasked] using hs.mem_begun j
        · simpa [hj] using hs.mem_begun j
      asked := by
        intro j request' receive' h
        by_cases hj : j = i
        · subst hj
          simp at h
        · exact hs.asked j request' receive' (by simpa [hj] using h)
      earlier := by
        intro j hlt
        by_cases hj : j = i
        · subst hj
          simp
        · simpa [hj] using hs.earlier j hlt }
  | advance hphase hfirst =>
    exact {
      hs with
      phase_le := le_rfl
      reached := fun a ha => (hs.reached a ha).trans (hphase.trans_le zero_le_one)
      earlier := fun i hi => hfirst i (Nat.lt_one_iff.1 hi) }

theorem Sound.leads (hs : Sound m) (h : x.Leads m m') : Sound m' := by
  induction h with
  | refl => exact hs
  | tail _ hstep ih => exact ih.moves hstep

/-- So a batch is sound at every moment of a schedule. -/
theorem sound_of_reaches (h : x.Reaches w m) : Sound m := sound_start.leads h

end Invariant

section Progress
variable {x} {w : σ} {m m' : Moment x.entries.length σ}

def Calm (m : Moment x.entries.length σ) : Prop := ∀ i, (m.turns i).isAsked = false

theorem Calm.free (h : Calm m) : m.inFlight < max x.jobs 1 := by
  have hzero : m.inFlight = 0 := by simp [Moment.inFlight, h _]
  omega

theorem Calm.unlocked (h : Calm m) (i : Fin x.entries.length) :
    (m.turns i).isWriting = false := by
  have hi := h i
  cases ht : m.turns i with
  | asked =>
    rw [ht] at hi
    cases hi
  | waiting | finished => rfl

/-- With nothing in flight, an entry of the current phase can have its turn. -/
theorem exists_moves_of_waiting {i : Fin x.entries.length} (hcalm : Calm m)
    (hphase : x.phase i = m.phase) (hwaiting : m.turns i = .waiting) : ∃ m', x.Moves m m' := by
  cases hcall : x.call i with
  | settled result => exact ⟨_, .settle hphase hwaiting hcalm.free hcall⟩
  | exchange request receive =>
    exact ⟨_, .ask hphase hwaiting hcalm.free (fun _ => hcalm.unlocked) hcall⟩

/-- A batch never gets stuck: when nothing moves any more, all entries have finished. -/
theorem Sound.finished_of_stopped (hs : Sound m) (hstop : x.Stopped m) :
    m.phase = 1 ∧ ∀ i, ∃ result, m.turns i = .finished result := by
  -- Whoever has asked could be answered, so nothing is in flight and neither workers nor the lock
  -- stand in the way of those that wait.
  have hcalm : Calm m := by
    intro i
    cases hi : m.turns i with
    | asked request receive => exact absurd (.answer hi) (hstop _)
    | waiting | finished => rfl
  have hcurrent : ∀ i, x.phase i = m.phase → ∃ result, m.turns i = .finished result := by
    intro i hphase
    cases hi : m.turns i with
    | finished result => exact ⟨result, rfl⟩
    | asked request receive => exact absurd (.answer hi) (hstop _)
    | waiting =>
      obtain ⟨m', hm'⟩ := exists_moves_of_waiting hcalm hphase hi
      exact absurd hm' (hstop m')
  have hphase : m.phase = 1 := by
    have hle := hs.phase_le
    by_contra hne
    have hzero : m.phase = 0 := by omega
    exact hstop _ (.advance hzero (hzero ▸ hcurrent))
  refine ⟨hphase, fun i => ?_⟩
  rcases (hphase ▸ phase_le_one i : x.phase i ≤ m.phase).lt_or_eq with hlt | heq
  · exact hs.earlier i hlt
  · exact hcurrent i heq

/-- A batch stops when its last entry has finished. -/
theorem stopped_of_finished (hphase : m.phase = 1)
    (hfinished : ∀ i, ∃ result, m.turns i = .finished result) : x.Stopped m := by
  intro m' h
  cases h with
  | @settle i _ _ hwaiting | @ask i _ _ _ hwaiting =>
    obtain ⟨result, hi⟩ := hfinished i
    rw [hwaiting] at hi
    cases hi
  | @answer i _ _ hasked =>
    obtain ⟨result, hi⟩ := hfinished i
    rw [hasked] at hi
    cases hi
  | advance hzero =>
    rw [hphase] at hzero
    cases hzero

/-- Every step brings a batch nearer to its end. -/
theorem effort_lt_of_moves (h : x.Moves m m') : m'.effort < m.effort := by
  cases h with
  | @settle i _ _ hwaiting | @ask i _ _ _ hwaiting =>
    refine Nat.add_lt_add_right (sum_update_lt ?_) _
    simp [hwaiting, Turn.effort]
  | @answer i _ _ hasked =>
    refine Nat.add_lt_add_right (sum_update_lt ?_) _
    simp [hasked, Turn.effort]
  | advance hzero =>
    simp [Moment.effort, hzero]

/-- Every schedule comes to an end. -/
theorem wellFounded_moves : WellFounded fun m' m => x.Moves m m' :=
  Subrelation.wf effort_lt_of_moves (measure Moment.effort).wf

theorem ends_of_leads {P : Moment x.entries.length σ → Prop}
    (h : ∀ m', x.Leads m m' → x.Stopped m' → P m') : x.Ends P m := by
  induction m using wellFounded_moves.induction with
  | h m ih =>
    refine .intro (h m .refl) fun m₁ hm₁ => ?_
    exact ih m₁ hm₁ fun m' hleads => h m' (.head hm₁ hleads)

theorem Ends.of_leads {P : Moment x.entries.length σ → Prop} (h : x.Ends P m)
    (hleads : x.Leads m m') (hstop : x.Stopped m') : P m' := by
  induction hleads using Relation.ReflTransGen.head_induction_on with
  | refl =>
    cases h with
    | intro hP _ => exact hP hstop
  | head hstep _ ih =>
    cases h with
    | intro _ hmoves => exact ih (hmoves _ hstep)

theorem Ends.imp {P Q : Moment x.entries.length σ → Prop} (h : x.Ends P m)
    (hPQ : ∀ m, P m → Q m) : x.Ends Q m :=
  ends_of_leads fun m' hleads hstop => hPQ m' (h.of_leads hleads hstop)

end Progress
end Execution
end Reconciler
