import Reconciler.Proofs.Batch.Delivery

/-! What batches may touch. An entry keeps its kind, its natural key and whatever its kind does not
map, in a batch and over any number of them; only a refresh drops entries, and only those that the
server says are missing. -/
namespace Reconciler

namespace Kind
variable {k : Kind} {c : Client} {s : DeclaredState}

/-- Deleting changes no value of a state. -/
theorem delete_keepsValues : (k.delete c s).Ensures fun step => step.2.values = s.values := by
  refine delete_cases.imp ?_
  rintro _ (rfl | rfl | ⟨e, rfl⟩) <;> rfl

/-- A reading changes neither the natural key nor what the kind does not map. -/
theorem afterGet_keeps {r : k.schema.Record} (hr : k.keyed s = .ok r) (reply : Reply) :
    let s' := (k.afterGet c (k.schema.naturalKey r) s reply).2
    s'.get? k.naturalKey = s.get? k.naturalKey ∧ ∀ x, x ∉ k.keys → s'.get? x = s.get? x := by
  rcases k.afterGet_cases c (k.schema.naturalKey r) s reply with
    ⟨-, d, -, -, hstep⟩ | ⟨-, -, hstep⟩ | ⟨e, hstep⟩
  · rw [hstep]
    exact ⟨get?_naturalKey_refreshed hr d, fun _ hx => get?_refreshed_unmapped k _ d s hx⟩
  · rw [hstep]
    exact ⟨rfl, fun _ _ => rfl⟩
  · rw [hstep]
    exact ⟨rfl, fun _ _ => rfl⟩

end Kind

namespace Entry
variable {e e' e'' : Entry} {c : Client} {op : Operation}

/-- What no operation changes of an entry. An entry of an unknown kind has no mapped keys. -/
structure Keeps (e e' : Entry) : Prop where
  kind : e'.kind = e.kind
  naturalKey : ∀ k, Kind.find e.kind = .ok k →
    e'.state.get? k.naturalKey = e.state.get? k.naturalKey
  unmapped : ∀ x, (∀ k, Kind.find e.kind = .ok k → x ∉ k.keys) →
    e'.state.get? x = e.state.get? x

theorem keeps_of_values {s : DeclaredState} (h : s.values = e.state.values) :
    e.Keeps ⟨e.kind, s⟩ :=
  have hget (x : String) : s.get? x = e.state.get? x :=
    congrArg (fun values : Block => values.get? x) h
  ⟨rfl, fun _ _ => hget _, fun x _ => hget x⟩

theorem Keeps.trans (h : e.Keeps e') (h' : e'.Keeps e'') : e.Keeps e'' where
  kind := h'.kind.trans h.kind
  naturalKey k hk := (h'.naturalKey k (h.kind ▸ hk)).trans (h.naturalKey k hk)
  unmapped x hx := (h'.unmapped x (h.kind ▸ hx)).trans (h.unmapped x hx)

theorem afterReading_snd {s : DeclaredState} (step : Step Presence) :
    (afterReading s step).2 = step.2 := by
  obtain ⟨result, s'⟩ := step
  rcases result with e | presence
  · rfl
  · cases presence <;> rfl

theorem absent_of_afterReading {s : DeclaredState} {step : Step Presence}
    (h : (afterReading s step).1 = .ok .removed) : step.1 = .ok .absent := by
  obtain ⟨result, s'⟩ := step
  rcases result with e | presence
  · cases h
  · cases presence with
    | absent => rfl
    | present =>
      dsimp only [afterReading] at h
      split at h <;> cases h

/-- Applying and destroying leave all values as they are. -/
theorem step_keepsValues (hop : op ≠ .refresh) :
    (e.step c op).Ensures fun step => step.2.values = e.state.values := by
  cases op with
  | apply => exact step_apply_keepsValues
  | refresh => exact absurd rfl hop
  | destroy =>
    cases hk : Kind.find e.kind with
    | error failure =>
      rw [step_of_unknown hk]
      rfl
    | ok k =>
      cases hid : e.state.hasId with
      | false =>
        rw [step_of_idle hk hid (by decide : Operation.destroy ≠ .apply)]
        rfl
      | true =>
        rw [step_destroy hk hid]
        exact Kind.delete_keepsValues

theorem step_refresh_keeps : (e.step c .refresh).Ensures fun step => e.Keeps ⟨e.kind, step.2⟩ := by
  rcases e.step_refresh_cases c with ⟨result, hstep, -⟩ | ⟨k, r, hk, hr, hstep⟩
  · rw [hstep]
    exact keeps_of_values rfl
  · rw [hstep]
    intro reply
    obtain ⟨hkey, hunmapped⟩ := Kind.afterGet_keeps (c := c) hr reply
    rw [afterReading_snd]
    refine ⟨rfl, fun l hl => ?_, fun x hx => hunmapped x (hx k hk)⟩
    cases hk.symm.trans hl
    exact hkey

/-- No operation takes more from an entry than it may. -/
theorem step_keeps : (e.step c op).Ensures fun step => e.Keeps ⟨e.kind, step.2⟩ := by
  by_cases hop : op = .refresh
  · subst hop
    exact step_refresh_keeps
  · exact (step_keepsValues hop).imp fun _ h => keeps_of_values h

theorem ok_removed_of_reported {result : Except Failure ApplyResult}
    (h : reported result = .removed) : result = .ok .removed := by
  cases result with
  | ok applied => exact congrArg Except.ok h
  | error failure => cases h

/-- A refresh finds an entry gone where the server says that its resource is missing. -/
theorem missing_of_removed {σ : Type} {server : Server σ} {w : σ}
    (h : ((e.step c .refresh).run server w).1.1 = .ok .removed) :
    ∃ k key receive body, e.resource? = some (k, key) ∧
      e.step c .refresh = .exchange (c.request .get (k.path key) none) receive ∧
      (server.answer (c.request .get (k.path key) none) w).1 = .response ⟨404, body⟩ := by
  rcases e.step_refresh_cases c with ⟨result, hstep, hsame⟩ | ⟨k, r, hk, hr, hstep⟩
  · rw [hstep] at h
    exact absurd (hsame _ h) nofun
  · rw [hstep] at h
    obtain ⟨body, hbody⟩ :=
      Kind.exists_missing_of_afterGet (Prod.ext (absent_of_afterReading h) rfl)
    exact ⟨k, _, _, body, resource?_of_keyed (Kind.ofTag?_of_find hk) hr, hstep, hbody⟩

end Entry

namespace Execution
variable {σ : Type} {x : Execution σ} {w : σ} {m : Moment x.entries.length σ}
  {i : Fin x.entries.length}

def current (x : Execution σ) (m : Moment x.entries.length σ) (i : Fin x.entries.length) : Entry :=
  ((m.turns i).slot (x.entry i)).entry

def gone (x : Execution σ) (m : Moment x.entries.length σ) (i : Fin x.entries.length) : Bool :=
  x.operation = .refresh ∧ x.isOver m = true ∧ ((m.turns i).slot (x.entry i)).isGone = true

def survivors (x : Execution σ) (m : Moment x.entries.length σ) : List (Fin x.entries.length) :=
  (List.finRange x.entries.length).filter fun i => !x.gone m i

/-- The entries that a batch holds. It drops none of them before all have had their turns. -/
def held (x : Execution σ) (m : Moment x.entries.length σ) : List Entry :=
  if x.isOver m then Batch.remaining x.operation (x.slots m) else (x.slots m).map (·.entry)

theorem held_eq_survivors : x.held m = (x.survivors m).map (x.current m) := by
  have hentries : (x.slots m).map (·.entry) =
      (List.finRange x.entries.length).map (x.current m) := by
    rw [slots, List.ofFn_eq_map, List.map_map]
    rfl
  cases hover : x.isOver m with
  | false => simp [held, survivors, gone, hover, hentries]
  | true =>
    cases hop : x.operation with
    | apply | destroy => simp [held, survivors, gone, hover, hop, Batch.remaining, hentries]
    | refresh =>
      have hsome : ∀ slot ∈ x.slots m, slot.outcome.isSome = true := List.all_eq_true.1 hover
      rw [held, if_pos hover, hop, Batch.remaining_refresh hsome, slots, List.ofFn_eq_map,
        List.filter_map, List.map_map]
      simp only [survivors, gone, hop, hover, true_and, Bool.decide_eq_true]
      rfl

/-- Entries survive unless they are found gone. -/
theorem mem_survivors : i ∈ x.survivors m ↔ x.gone m i = false := by
  simp [survivors]

theorem survivors_of_ne (hop : x.operation ≠ .refresh) :
    x.survivors m = List.finRange x.entries.length := by
  simp [survivors, gone, hop]

theorem pairwise_survivors : (x.survivors m).Pairwise (· < ·) :=
  (List.pairwise_lt_finRange _).filter _

/-- The server has given this reply to a request of an entry, on the way to this moment. -/
def Answered (x : Execution σ) (w : σ) (m : Moment x.entries.length σ) (i : Fin x.entries.length)
    (request : Request) (reply : Reply) : Prop :=
  ∃ m₀ m₁ receive, x.Reaches w m₀ ∧ x.Moves m₀ m₁ ∧ x.Leads m₁ m ∧
    m₀.turns i = .asked request receive ∧ m₁.turns i = .finished (receive reply) ∧
    (x.endpoint.answer request m₀.world).1 = reply

section Reached
variable (hm : x.Reaches w m)
include hm

/-- At no moment has an entry lost more than it may. -/
theorem current_keeps (i : Fin x.entries.length) : (x.entry i).Keeps (x.current m i) := by
  unfold current
  cases hi : m.turns i with
  | waiting | asked => exact Entry.keeps_of_values rfl
  | finished result =>
    obtain ⟨step, ⟨m₀, -, -, -, -, -, -, rfl⟩, rfl⟩ := exists_made hm hi
    exact Entry.step_keeps.run ..

theorem current_declared (hop : x.operation ≠ .refresh) (i : Fin x.entries.length) :
    (x.current m i).declared = (x.entry i).declared := by
  unfold current
  cases hi : m.turns i with
  | waiting | asked => rfl
  | finished result =>
    obtain ⟨step, ⟨m₀, -, -, -, -, -, -, rfl⟩, rfl⟩ := exists_made hm hi
    have hvalues := (Entry.step_keepsValues (c := x.client) (e := x.entry i) hop).run
      x.endpoint.answering m₀.world
    simp [Turn.slot, Entry.after, Entry.declared, DeclaredState.clearId, hvalues]

/-- An entry that is gone has asked for its resource, and was told that it is missing. -/
theorem answered_of_gone (hgone : x.gone m i = true) : x.operation = .refresh ∧
    ∃ k key body, (x.entry i).resource? = some (k, key) ∧
      x.Answered w m i (x.client.request .get (k.path key) none) (.response ⟨404, body⟩) := by
  rw [gone, decide_eq_true_iff] at hgone
  obtain ⟨hop, -, hremoved⟩ := hgone
  refine ⟨hop, ?_⟩
  cases hi : m.turns i with
  | waiting | asked =>
    rw [hi] at hremoved
    cases hremoved
  | finished result =>
    obtain ⟨step, ⟨m₀, m₁, hm₀, hmove, hleads, hnew, hdone, hstep⟩, rfl⟩ := exists_made hm hi
    rw [hi] at hremoved
    rw [hop] at hstep
    have hresult : step.1 = .ok .removed :=
      Entry.ok_removed_of_reported (of_decide_eq_true hremoved)
    obtain ⟨k, key, receive, body, hresource, hcall, hreply⟩ :=
      Entry.missing_of_removed (hstep ▸ hresult)
    have hexchange : x.call i = .exchange (x.client.request .get (k.path key) none) fun reply =>
        (x.entry i).after i (receive reply) := by
      rw [call, hop, Entry.run_eq, hcall]
      rfl
    have hasked := (asked_of_finished (sound_of_reaches hm₀) hmove hexchange hdone).resolve_left
      (hnew _)
    rw [hcall] at hstep
    refine ⟨k, key, body, hresource, m₀, m₁, _, hm₀, hmove, hleads, hasked, ?_, hreply⟩
    rw [hdone, hstep, ← hreply]
    rfl

end Reached
end Execution

namespace Batch

/-- A batch at a moment of its run. Any client may run it against any server, under any schedule. -/
structure Course where
  {σ : Type}
  execution : Execution σ
  {world : σ}
  {moment : Moment execution.entries.length σ}
  reached : execution.Reaches world moment

namespace Course

def operation (b : Course) : Operation := b.execution.operation

def entries (b : Course) : List Entry := b.execution.entries

def left (b : Course) : List Entry := b.execution.held b.moment

def positions (b : Course) : List Nat := (b.execution.survivors b.moment).map Fin.val

/-- A refresh of the entry at this position has asked the server for its resource, and was told that
it is missing. -/
def Drops (b : Course) (i : Nat) : Prop :=
  b.operation = .refresh ∧ ∃ (j : Fin b.execution.entries.length) (k : Kind) (key : String)
    (body : List UInt8), j.val = i ∧ (b.execution.entry j).resource? = some (k, key) ∧
      b.execution.Answered b.world b.moment j
        (b.execution.client.request .get (k.path key) none) (.response ⟨404, body⟩)

variable {b : Course} {i j : Nat}

/-- Whatever is left was there before. -/
theorem kept_of_left {e' : Entry} (h : b.left[j]? = some e') :
    ∃ i e, b.entries[i]? = some e ∧ b.positions[j]? = some i ∧ e.Keeps e' := by
  rw [left, Execution.held_eq_survivors, List.getElem?_map,
    Option.map_eq_some_iff] at h
  obtain ⟨i, hi, rfl⟩ := h
  refine ⟨i, b.execution.entry i, List.getElem?_eq_getElem i.isLt, ?_,
    Execution.current_keeps b.reached i⟩
  rw [positions, List.getElem?_map, hi, Option.map_some]

/-- Each entry is left, or dropped. -/
theorem left_or_drops {e : Entry} (h : b.entries[i]? = some e) :
    (∃ (j : Nat) (e' : Entry), b.left[j]? = some e' ∧ b.positions[j]? = some i) ∨ b.Drops i := by
  obtain ⟨hi, rfl⟩ := List.getElem?_eq_some_iff.1 h
  cases hgone : b.execution.gone b.moment ⟨i, hi⟩ with
  | true =>
    obtain ⟨hop, k, key, body, hresource, hanswered⟩ := Execution.answered_of_gone b.reached hgone
    exact .inr ⟨hop, ⟨i, hi⟩, k, key, body, rfl, hresource, hanswered⟩
  | false =>
    obtain ⟨j, hj⟩ := List.mem_iff_getElem?.1 (Execution.mem_survivors.2 hgone)
    refine .inl ⟨j, b.execution.current b.moment ⟨i, hi⟩, ?_, ?_⟩
    · rw [left, Execution.held_eq_survivors, List.getElem?_map, hj, Option.map_some]
    · rw [positions, List.getElem?_map, hj, Option.map_some]

theorem lt_of_positions {i i' j j' : Nat} (h : b.positions[j]? = some i)
    (h' : b.positions[j']? = some i') (hlt : j < j') : i < i' := by
  obtain ⟨hj, rfl⟩ := List.getElem?_eq_some_iff.1 h
  obtain ⟨hj', rfl⟩ := List.getElem?_eq_some_iff.1 h'
  have hsorted : b.positions.Pairwise (· < ·) :=
    List.pairwise_map.2 Execution.pairwise_survivors
  exact List.pairwise_iff_getElem.1 hsorted j j' hj hj' hlt

/-- Those that are left stay in their order. -/
theorem positions_lt_iff {i i' j j' : Nat} (h : b.positions[j]? = some i)
    (h' : b.positions[j']? = some i') : i < i' ↔ j < j' := by
  refine ⟨fun hlt => ?_, lt_of_positions h h'⟩
  rcases lt_trichotomy j j' with hj | rfl | hj
  · exact hj
  · exact absurd hlt (Nat.not_lt_of_ge (Option.some.inj (h.symm.trans h')).ge)
  · exact absurd hlt (lt_of_positions h' h hj).not_gt

/-- A batch that has come to its end leaves what its outcomes let remain. -/
theorem left_of_stopped (h : b.execution.Stopped b.moment) :
    b.left = remaining b.operation (b.execution.slots b.moment) :=
  if_pos (Execution.isOver_of_stopped b.reached h)

theorem declared_left (hop : b.operation ≠ .refresh) :
    b.left.map Entry.declared = b.entries.map Entry.declared := by
  rw [left, Execution.held_eq_survivors, Execution.survivors_of_ne hop,
    List.map_map, entries]
  conv_rhs => rw [← Execution.map_entry (x := b.execution), List.map_map]
  exact List.map_congr_left fun i _ => Execution.current_declared b.reached hop i

end Course

inductive Follow : List Entry → List Course → List Entry → Prop
  | nil {es : List Entry} : Follow es [] es
  | cons {b : Course} {bs : List Course} {es : List Entry} (h : Follow b.left bs es) :
      Follow b.entries (b :: bs) es

inductive Carry : List Course → Nat → Nat → Prop
  | nil {i : Nat} : Carry [] i i
  | cons {b : Course} {bs : List Course} {i j l : Nat} (hb : b.positions[j]? = some i)
      (h : Carry bs j l) : Carry (b :: bs) i l

/-- What batches preserve over their history. Who is left has the kind, the natural key and the
unmapped values it had in the beginning, and those that are left stay in their order. Who is not has
been dropped by a refresh, and what a batch leaves at its end are those that its report lets remain.
No batch but a refresh changes anything that is declared. -/
structure Preserved (es : List Entry) (bs : List Course) (es' : List Entry) : Prop where
  kept : ∀ (j : Nat) e', es'[j]? = some e' → ∃ i e, es[i]? = some e ∧ Carry bs i j ∧ e.Keeps e'
  ordered : ∀ i i' j j', Carry bs i j → Carry bs i' j' → (i < i' ↔ j < j')
  dropped : ∀ (i : Nat) e, es[i]? = some e →
    (∃ (j : Nat) (e' : Entry), es'[j]? = some e' ∧ Carry bs i j) ∨
    ∃ before b after j, bs = before ++ b :: after ∧ Carry before i j ∧ b.Drops j
  ended : ∀ b ∈ bs, b.execution.Stopped b.moment →
    b.left = remaining b.operation (b.execution.slots b.moment)
  declared : ∀ b ∈ bs, b.operation ≠ .refresh →
    b.left.map Entry.declared = b.entries.map Entry.declared

section Preserved
variable {es es' : List Entry} {b : Course} {bs : List Course}

theorem preserved_nil : Preserved es [] es where
  kept j e' hj := ⟨j, e', hj, .nil, Entry.keeps_of_values rfl⟩
  ordered := by
    rintro _ _ _ _ ⟨⟩ ⟨⟩
    rfl
  dropped i e hi := .inl ⟨i, e, hi, .nil⟩
  ended := List.forall_mem_nil _
  declared := List.forall_mem_nil _

theorem Preserved.cons (h : Preserved b.left bs es) : Preserved b.entries (b :: bs) es where
  kept j e' hj := by
    obtain ⟨l, e₁, hl, hcarry, hkeeps⟩ := h.kept j e' hj
    obtain ⟨i, e, hi, hposition, hfirst⟩ := Course.kept_of_left hl
    exact ⟨i, e, hi, .cons hposition hcarry, hfirst.trans hkeeps⟩
  ordered := by
    rintro i i' j j' ⟨⟩ ⟨⟩
    next l hl hcarry l' hl' hcarry' =>
    exact (Course.positions_lt_iff hl hl').trans (h.ordered _ _ _ _ hcarry hcarry')
  dropped i e hi := by
    rcases Course.left_or_drops hi with ⟨l, e₁, hl, hposition⟩ | hdrops
    · rcases h.dropped l e₁ hl with
        ⟨j, e', hj, hcarry⟩ | ⟨before, b', after, j, rfl, hcarry, hdrops⟩
      · exact .inl ⟨j, e', hj, .cons hposition hcarry⟩
      · exact .inr ⟨b :: before, b', after, j, rfl, .cons hposition hcarry, hdrops⟩
    · exact .inr ⟨[], b, bs, i, rfl, .nil, hdrops⟩
  ended := List.forall_mem_cons.2 ⟨Course.left_of_stopped, h.ended⟩
  declared := List.forall_mem_cons.2 ⟨Course.declared_left, h.declared⟩

/-- Whatever batches are run one after the other, and whatever happens to them, this is what they
preserve. -/
theorem preserved_of_follow (h : Follow es bs es') : Preserved es bs es' := by
  induction h with
  | nil => exact preserved_nil
  | cons _ ih => exact ih.cons

/-- A node and its agent, applied, refreshed and destroyed again. -/
theorem preserved_of_follow_monitored : ∃ bs es', bs.map Course.operation =
      [.apply, .refresh, .destroy] ∧
    Follow Execution.monitored.entries bs es' ∧
    ∀ e' ∈ es', ∃ e ∈ Execution.monitored.entries, e.Keeps e' := by
  obtain ⟨m₁, hm₁, -⟩ :=
    Execution.exists_reaches_runSlots (x := Execution.monitored) (.refl _) DocumentServer.empty
  let b₁ : Course := ⟨Execution.monitored, hm₁⟩
  let x₂ : Execution DocumentServer :=
    { Execution.monitored with operation := .refresh, entries := b₁.left }
  obtain ⟨m₂, hm₂, -⟩ := Execution.exists_reaches_runSlots (x := x₂) (.refl _) m₁.world
  let b₂ : Course := ⟨x₂, hm₂⟩
  let x₃ : Execution DocumentServer :=
    { Execution.monitored with operation := .destroy, entries := b₂.left }
  obtain ⟨m₃, hm₃, -⟩ := Execution.exists_reaches_runSlots (x := x₃) (.refl _) m₂.world
  let b₃ : Course := ⟨x₃, hm₃⟩
  have hfollow : Follow Execution.monitored.entries [b₁, b₂, b₃] b₃.left :=
    .cons (b := b₁) (.cons (b := b₂) (.cons (b := b₃) .nil))
  refine ⟨_, _, rfl, hfollow, fun e' he' => ?_⟩
  obtain ⟨j, hj⟩ := List.mem_iff_getElem?.1 he'
  obtain ⟨i, e, hi, -, hkeeps⟩ := (preserved_of_follow hfollow).kept j e' hj
  exact ⟨e, List.mem_of_getElem? hi, hkeeps⟩

end Preserved
end Batch
end Reconciler
