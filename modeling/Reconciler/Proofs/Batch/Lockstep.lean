import Mathlib.Data.List.Forall2
import Reconciler.Proofs.Batch.Sequential

/-! Two batches side by side. If the calls of their entries come to related results wherever the
servers are alike, every schedule of one batch is a schedule of the other, and at the end of it they
report the same. -/
namespace Reconciler

section Twins
variable {σ α β γ δ : Type} {e : Endpoint σ} {near : σ → σ → Prop} {P : α → β → Prop}
  {Q : γ → δ → Prop}

/-- Two calls that keep worlds alike and come to related results in them. -/
inductive Call.Twins (e : Endpoint σ) (near : σ → σ → Prop) (P : α → β → Prop) :
    Call α → Call β → Prop
  | settled {a b} (h : P a b) : Twins e near P (.settled a) (.settled b)
  | exchange {request request' receive receive'} (hmethod : request'.method = request.method)
      (harrive : ∀ w w', near w w' → near (e.arrive request w) (e.arrive request' w'))
      (hanswer : ∀ w w', near w w' →
        P (receive (e.answer request w).1) (receive' (e.answer request' w').1) ∧
          near (e.answer request w).2 (e.answer request' w').2) :
      Twins e near P (.exchange request receive) (.exchange request' receive')

theorem Call.Twins.exists_settled {a : α} {call' : Call β}
    (h : (Call.settled a).Twins e near P call') : ∃ b, call' = .settled b ∧ P a b := by
  cases h with
  | settled h => exact ⟨_, rfl, h⟩

theorem Call.Twins.exists_exchange {request : Request} {receive : Reply → α} {call' : Call β}
    (h : (Call.exchange request receive).Twins e near P call') :
    ∃ request' receive', call' = .exchange request' receive' ∧ request'.method = request.method ∧
      (∀ w w', near w w' → near (e.arrive request w) (e.arrive request' w')) ∧
      ∀ w w', near w w' →
        P (receive (e.answer request w).1) (receive' (e.answer request' w').1) ∧
          near (e.answer request w).2 (e.answer request' w').2 := by
  cases h with
  | exchange hmethod harrive hanswer => exact ⟨_, _, rfl, hmethod, harrive, hanswer⟩

/-- Related results may be made into other related ones. -/
theorem Call.Twins.map {call : Call α} {call' : Call β} (h : call.Twins e near P call')
    {f : α → γ} {g : β → δ} (hfg : ∀ a b, P a b → Q (f a) (g b)) :
    (call.map f).Twins e near Q (call'.map g) := by
  cases h with
  | settled h => exact .settled (hfg _ _ h)
  | exchange hmethod harrive hanswer =>
    refine .exchange hmethod harrive fun w w' hw => ?_
    obtain ⟨hresult, hworld⟩ := hanswer w w' hw
    exact ⟨hfg _ _ hresult, hworld⟩

end Twins

section Turns
variable {σ : Type} (e : Endpoint σ) (near : σ → σ → Prop) (R : Entry → Entry → Prop)

def Paired (a b : Entry × Outcome) : Prop := R a.1 b.1 ∧ a.2 = b.2

def Slot.Twins (a b : Slot) : Prop :=
  R a.entry b.entry ∧ a.outcome = b.outcome

inductive Turn.Twins : Turn → Turn → Prop
  | waiting : Twins .waiting .waiting
  | asked {request request' receive receive'}
      (h : (Call.exchange request receive).Twins e near (Paired R)
        (.exchange request' receive')) :
      Twins (.asked request receive) (.asked request' receive')
  | finished {a b} (h : Paired R a b) : Twins (.finished a) (.finished b)

structure Moment.Twins {n n' : Nat} (m : Moment n σ) (m' : Moment n' σ) : Prop where
  phase : m'.phase = m.phase
  turns : ∀ (i : Fin n) (j : Fin n'), i.val = j.val → (m.turns i).Twins e near R (m'.turns j)
  begun : m'.begun.map (·.1.val) = m.begun.map (·.1.val)
  world : near m.world m'.world

end Turns

section Moments
variable {σ : Type} {e : Endpoint σ} {near : σ → σ → Prop} {R : Entry → Entry → Prop}

theorem Turn.Twins.eq_waiting {t' : Turn} (h : Turn.waiting.Twins e near R t') :
    t' = .waiting := by
  cases h
  rfl

theorem Turn.Twins.exists_asked {request : Request} {receive : Reply → Entry × Outcome} {t' : Turn}
    (h : (Turn.asked request receive).Twins e near R t') : ∃ request' receive',
      t' = .asked request' receive' ∧ (Call.exchange request receive).Twins e near (Paired R)
        (.exchange request' receive') := by
  cases h with
  | asked h => exact ⟨_, _, rfl, h⟩

theorem Turn.Twins.exists_finished {result : Entry × Outcome} {t' : Turn}
    (h : (Turn.finished result).Twins e near R t') :
    ∃ result', t' = .finished result' ∧ Paired R result result' := by
  cases h with
  | finished h => exact ⟨_, rfl, h⟩

theorem Turn.Twins.isAsked {t t' : Turn} (h : t.Twins e near R t') : t'.isAsked = t.isAsked := by
  cases h <;> rfl

theorem Turn.Twins.isWriting {t t' : Turn} (h : t.Twins e near R t') :
    t'.isWriting = t.isWriting := by
  cases h with
  | waiting | finished => rfl
  | asked h =>
    cases h with
    | exchange hmethod => exact congrArg Method.isMutating hmethod

namespace Moment.Twins
variable {n n' : Nat} {m : Moment n σ} {m' : Moment n' σ}

theorem inFlight (hn : n = n') (h : m.Twins e near R m') : m'.inFlight = m.inFlight := by
  subst hn
  refine congrArg Finset.card (Finset.filter_congr fun i _ => ?_)
  rw [(h.turns i i rfl).isAsked]

/-- They remain so when two turns at one position go on to what is equally far again. -/
theorem update (h : m.Twins e near R m') {i : Fin n} {j : Fin n'} (hij : i.val = j.val)
    {t t' : Turn} (ht : t.Twins e near R t') {begun : List (Fin n × Option Request)}
    {begun' : List (Fin n' × Option Request)}
    (hbegun : begun'.map (·.1.val) = begun.map (·.1.val)) {w w' : σ} (hw : near w w') :
    (Moment.mk m.phase (Function.update m.turns i t) begun w).Twins e near R
      (Moment.mk m'.phase (Function.update m'.turns j t') begun' w') where
  phase := h.phase
  turns i' j' hij' := by
    by_cases hi : i' = i
    · subst hi
      obtain rfl : j' = j := Fin.ext (hij'.symm.trans hij)
      simpa using ht
    · have hj : j' ≠ j := by
        rintro rfl
        exact hi (Fin.ext (hij'.trans hij.symm))
      simpa [hi, hj] using h.turns i' j' hij'
  begun := hbegun
  world := hw

end Moment.Twins
end Moments

namespace Execution
variable {σ : Type} {near : σ → σ → Prop} {R : Entry → Entry → Prop}

/-- Two batches of which each entry has a twin in the other, and that share all else. -/
structure Mirrors (near : σ → σ → Prop) (R : Entry → Entry → Prop) (x y : Execution σ) : Prop where
  endpoint : y.endpoint = x.endpoint
  operation : y.operation = x.operation
  jobs : y.jobs = x.jobs
  length : x.entries.length = y.entries.length
  phase : ∀ (i : Fin x.entries.length) (j : Fin y.entries.length), i.val = j.val →
    y.phase j = x.phase i
  entry : ∀ (i : Fin x.entries.length) (j : Fin y.entries.length), i.val = j.val →
    R (x.entry i) (y.entry j)
  call : ∀ (i : Fin x.entries.length) (j : Fin y.entries.length), i.val = j.val →
    (x.call i).Twins x.endpoint near (Paired R) (y.call j)

variable {x y : Execution σ} {w w' : σ} {m m₁ : Moment x.entries.length σ}
  {m' : Moment y.entries.length σ}

/-- Batches over related entries start in step. -/
theorem twins_start (hw : near w w') : (x.start w).Twins x.endpoint near R (y.start w') where
  phase := rfl
  turns _ _ _ := .waiting
  begun := rfl
  world := hw

/-- Whatever step one batch takes, the other can take it too. -/
theorem Mirrors.moves (hxy : Mirrors near R x y) (h : m.Twins x.endpoint near R m')
    (hstep : x.Moves m m₁) : ∃ m₁', y.Moves m' m₁' ∧ m₁.Twins x.endpoint near R m₁' := by
  have hother (i : Fin x.entries.length) : ∃ j : Fin y.entries.length, i.val = j.val :=
    ⟨i.cast hxy.length, rfl⟩
  have hfree' (hfree : m.inFlight < max x.jobs 1) : m'.inFlight < max y.jobs 1 := by
    rw [h.inFlight hxy.length, hxy.jobs]
    exact hfree
  have hbegun {i : Fin x.entries.length} {j : Fin y.entries.length} (hij : i.val = j.val)
      (request? request'? : Option Request) : (m'.begun ++ [(j, request'?)]).map (·.1.val) =
        (m.begun ++ [(i, request?)]).map (·.1.val) := by
    simp [h.begun, hij]
  cases hstep with
  | @settle i result hphase hwaiting hfree hcall =>
    obtain ⟨j, hij⟩ := hother i
    have hphase' : y.phase j = m'.phase := by rw [hxy.phase i j hij, hphase, h.phase]
    have hwaiting' : m'.turns j = .waiting := (hwaiting ▸ h.turns i j hij).eq_waiting
    obtain ⟨result', hcall', hresult⟩ := (hcall ▸ hxy.call i j hij).exists_settled
    exact ⟨_, .settle hphase' hwaiting' (hfree' hfree) hcall',
      h.update hij (.finished hresult) (hbegun hij _ _) h.world⟩
  | @ask i request receive hphase hwaiting hfree hlock hcall =>
    obtain ⟨j, hij⟩ := hother i
    have hphase' : y.phase j = m'.phase := by rw [hxy.phase i j hij, hphase, h.phase]
    have hwaiting' : m'.turns j = .waiting := (hwaiting ▸ h.turns i j hij).eq_waiting
    have htwin := hcall ▸ hxy.call i j hij
    obtain ⟨request', receive', hcall', hmethod, harrive, -⟩ := htwin.exists_exchange
    have hlock' : request'.method.isMutating = true → ∀ l, (m'.turns l).isWriting = false := by
      intro hwrites l
      rw [(h.turns (l.cast hxy.length.symm) l rfl).isWriting]
      exact hlock (hmethod ▸ hwrites) _
    refine ⟨_, .ask hphase' hwaiting' (hfree' hfree) hlock' hcall',
      h.update hij (.asked (hcall' ▸ htwin)) (hbegun hij _ _) ?_⟩
    rw [hxy.endpoint]
    exact harrive _ _ h.world
  | @answer i request receive hasked =>
    obtain ⟨j, hij⟩ := hother i
    obtain ⟨request', receive', hasked', htwin⟩ := (hasked ▸ h.turns i j hij).exists_asked
    obtain ⟨_, _, hsame, -, -, hanswer⟩ := htwin.exists_exchange
    cases hsame
    obtain ⟨hresult, hworld⟩ := hanswer _ _ h.world
    refine ⟨_, .answer hasked', ?_⟩
    rw [hxy.endpoint]
    exact h.update hij (.finished hresult) h.begun hworld
  | advance hphase hfirst =>
    refine ⟨_, .advance (h.phase.trans hphase) fun j hj => ?_, ⟨rfl, h.turns, h.begun, h.world⟩⟩
    have hij : (j.cast hxy.length.symm).val = j.val := rfl
    obtain ⟨result, hfinished⟩ := hfirst _ ((hxy.phase _ j hij).symm.trans hj)
    obtain ⟨result', hfinished', -⟩ := (hfinished ▸ h.turns _ j hij).exists_finished
    exact ⟨result', hfinished'⟩

/-- What one batch reaches, the other can reach in step with it. -/
theorem Mirrors.reaches (hxy : Mirrors near R x y) (hw : near w w') (h : x.Reaches w m) :
    ∃ m', y.Reaches w' m' ∧ m.Twins x.endpoint near R m' := by
  induction h with
  | refl => exact ⟨_, .refl, twins_start hw⟩
  | tail _ hstep ih =>
    obtain ⟨m', hm', htwins⟩ := ih
    obtain ⟨m₁', hstep', htwins'⟩ := hxy.moves htwins hstep
    exact ⟨m₁', hm'.tail hstep', htwins'⟩

/-- In step, the slots of two batches are related one by one. -/
theorem Mirrors.forall₂_slots (hxy : Mirrors near R x y) (h : m.Twins x.endpoint near R m') :
    List.Forall₂ (Slot.Twins R) (x.slots m) (y.slots m') := by
  refine List.forall₂_iff_get.2 ⟨by simpa using hxy.length, fun i hi hi' => ?_⟩
  rw [length_slots] at hi hi'
  have hturn := h.turns ⟨i, hi⟩ ⟨i, hi'⟩ rfl
  have hentry := hxy.entry ⟨i, hi⟩ ⟨i, hi'⟩ rfl
  simp only [slots, List.get_eq_getElem, List.getElem_ofFn]
  cases hm : m.turns ⟨i, hi⟩ with
  | waiting =>
    rw [hm] at hturn
    rw [hturn.eq_waiting]
    exact ⟨hentry, rfl⟩
  | asked request receive =>
    rw [hm] at hturn
    obtain ⟨_, _, hm', -⟩ := hturn.exists_asked
    rw [hm']
    exact ⟨hentry, rfl⟩
  | finished result =>
    rw [hm] at hturn
    obtain ⟨result', hm', hresult, houtcome⟩ := hturn.exists_finished
    rw [hm']
    exact ⟨hresult, congrArg some houtcome⟩

end Execution

namespace Batch

/-- The same marks drop the same positions. -/
theorem forall₂_dropMarked {α β : Type} {r : α → β → Prop} {xs : List α} {ys : List β}
    (h : List.Forall₂ r xs ys) (marks : List Bool) :
    List.Forall₂ r (dropMarked marks xs) (dropMarked marks ys) := by
  induction h generalizing marks with
  | nil => cases marks <;> exact .nil
  | cons hxy hrest ih =>
    cases marks with
    | nil => exact .cons hxy hrest
    | cons gone marks =>
      cases gone with
      | true => exact ih marks
      | false => exact .cons hxy (ih marks)

section Twins
variable {R : Entry → Entry → Prop} {slots slots' : List Slot}
  (h : List.Forall₂ (Slot.Twins R) slots slots')
include h

theorem outcomes_eq_of_twins : outcomes slots' = outcomes slots := by
  unfold outcomes
  induction h with
  | nil => rfl
  | cons h _ ih => rw [List.filterMap_cons, List.filterMap_cons, h.2, ih]

/-- Equally full slots make one report. -/
theorem report_eq_of_twins : report slots' = report slots := by
  rw [report, report, outcomes_eq_of_twins h]

theorem forall₂_entries : List.Forall₂ R (slots.map (·.entry)) (slots'.map (·.entry)) :=
  List.forall₂_map_left_iff.2 (List.forall₂_map_right_iff.2 (h.imp fun _ _ hslot => hslot.1))

theorem forall₂_remaining (op : Operation) :
    List.Forall₂ R (remaining op slots) (remaining op slots') := by
  cases op with
  | apply | destroy => exact forall₂_entries h
  | refresh =>
    unfold remaining
    rw [outcomes_eq_of_twins h]
    exact forall₂_dropMarked (forall₂_entries h) _

end Twins
end Batch

namespace Execution
variable {σ : Type} {near : σ → σ → Prop} {R : Entry → Entry → Prop} {x y : Execution σ} {w w' : σ}
  {m : Moment x.entries.length σ} {m' : Moment y.entries.length σ}

/-- In step, two batches stop together. -/
theorem Mirrors.stopped_iff (hxy : Mirrors near R x y) (hx : x.Reaches w m)
    (h : m.Twins x.endpoint near R m') : y.Stopped m' ↔ x.Stopped m := by
  constructor
  · intro hstop m₁ hstep
    obtain ⟨m₁', hstep', -⟩ := hxy.moves h hstep
    exact hstop m₁' hstep'
  · intro hstop
    obtain ⟨hphase, hfinished⟩ := (sound_of_reaches hx).finished_of_stopped hstop
    refine stopped_of_finished (h.phase.trans hphase) fun j => ?_
    have hij : (j.cast hxy.length.symm).val = j.val := rfl
    obtain ⟨result, hi⟩ := hfinished (j.cast hxy.length.symm)
    obtain ⟨result', hj, -⟩ := (hi ▸ h.turns _ j hij).exists_finished
    exact ⟨result', hj⟩

/-- Whatever a batch comes to, the other can come to the same: with its entries begun in the same
order, and with the same report. -/
def Shadowed (R : Entry → Entry → Prop) (x y : Execution σ) (w w' : σ) : Prop :=
  ∀ m, x.Reaches w m → ∃ m', y.Reaches w' m' ∧
    m'.begun.map (·.1.val) = m.begun.map (·.1.val) ∧ (y.Stopped m' ↔ x.Stopped m) ∧
    Batch.report (y.slots m') = Batch.report (x.slots m) ∧
    List.Forall₂ R (Batch.remaining x.operation (x.slots m))
      (Batch.remaining y.operation (y.slots m'))

/-- Batches that mirror each other come to the same, as far as reports tell. -/
theorem Mirrors.shadowed (hxy : Mirrors near R x y) (hw : near w w') : x.Shadowed R y w w' := by
  intro m hm
  obtain ⟨m', hm', htwins⟩ := hxy.reaches hw hm
  have hslots := hxy.forall₂_slots htwins
  refine ⟨m', hm', htwins.begun, hxy.stopped_iff hm htwins, Batch.report_eq_of_twins hslots, ?_⟩
  rw [hxy.operation]
  exact Batch.forall₂_remaining hslots _

end Execution
end Reconciler
