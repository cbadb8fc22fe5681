import Reconciler.Proofs.Declared.Misfit

/-! Reads of any depth: typed values at the leaves, and lists of blocks, each read the same way, at
the inner nodes. Such a read succeeds exactly where everything it looks at fits. Otherwise it names
the first misfit, in the order in which it looks, by the path that leads there. -/
namespace Reconciler

inductive PathStep
  | key (name : String)
  | index (position : Nat)

namespace PathStep

def text : PathStep → String
  | .key name => name
  | .index position => toString position

def follow? : PathStep → Value → Option Value
  | .key name, .map block => block.get? name
  | .index position, .list items => items[position]?
  | _, _ => none

end PathStep

def dotted : List PathStep → String
  | [] => ""
  | step :: path => path.foldl (fun text step => text ++ "." ++ step.text) step.text

theorem dotted_concat {path : List PathStep} (h : path ≠ []) (step : PathStep) :
    dotted (path ++ [step]) = dotted path ++ "." ++ step.text := by
  cases path with
  | nil => exact absurd rfl h
  | cons first path =>
    rw [List.cons_append, dotted, dotted, List.foldl_append]
    rfl

theorem dotted_index {path : List PathStep} (h : path ≠ []) (index : Nat) :
    dotted path ++ "." ++ toString index = dotted (path ++ [.index index]) :=
  (dotted_concat h (.index index)).symm

def Value.follow? (v : Value) (path : List PathStep) : Option Value :=
  path.foldlM (fun w step => step.follow? w) v

/-- A path is followed step by step. -/
theorem Value.follow?_concat {v w : Value} {path : List PathStep} (h : v.follow? path = some w)
    (step : PathStep) : v.follow? (path ++ [step]) = step.follow? w := by
  unfold follow? at h ⊢
  rw [List.foldlM_append, h]
  simp

namespace Value

def items? : Value → Option (List Value)
  | .list items => some items
  | _ => none

def block? : Value → Option Block
  | .map block => some block
  | _ => none

theorem items?_eq_some_iff {v : Value} {items : List Value} :
    v.items? = some items ↔ v = .list items := by
  cases v <;> simp [items?]

theorem block?_eq_some_iff {v : Value} {block : Block} :
    v.block? = some block ↔ v = .map block := by
  cases v <;> simp [block?]

theorem ne_list_of_items? {v : Value} (h : v.items? = none) (items : List Value) :
    v ≠ .list items := by
  rintro rfl
  cases h

theorem ne_map_of_block? {v : Value} (h : v.block? = none) (block : Block) : v ≠ .map block := by
  rintro rfl
  cases h

end Value

section Found
variable {α : Type}

/-- What is found under a key converts to `x`; where nothing is found, `x` is the zero. -/
def YieldsValue [OfValue α] (found : Option Value) (x : α) : Prop :=
  match found with
  | none => x = OfValue.zero
  | some v => ofValue? v = some x

/-- What is found under a key is a list of blocks that yield one result each, in order; where
nothing is found, there are no results. -/
def YieldsList (yields : Block → α → Prop) (found : Option Value) (xs : List α) : Prop :=
  match found with
  | none => xs = []
  | some v => ∃ blocks : List Block, v = .list (blocks.map .map) ∧ List.Forall₂ yields blocks xs

/-- There is something to be read just if the value that is there converts. -/
theorem exists_yieldsValue_iff [OfValue α] {found : Option Value} :
    (∃ x : α, YieldsValue found x) ↔ ∀ v ∈ found, ∃ x : α, ofValue? v = some x := by
  cases found <;> simp [YieldsValue]

theorem exists_forall₂_iff {β : Type} {R : α → β → Prop} {xs : List α} :
    (∃ ys, List.Forall₂ R xs ys) ↔ ∀ x ∈ xs, ∃ y, R x y := by
  induction xs with
  | nil => exact iff_of_true ⟨[], .nil⟩ (List.forall_mem_nil _)
  | cons x xs ih =>
    rw [List.forall_mem_cons, ← ih]
    constructor
    · rintro ⟨_, hall⟩
      cases hall with
      | cons hy hys => exact ⟨⟨_, hy⟩, _, hys⟩
    · rintro ⟨⟨y, hy⟩, ys, hys⟩
      exact ⟨y :: ys, .cons hy hys⟩

theorem exists_yieldsList_iff {yields : Block → α → Prop} {found : Option Value} :
    (∃ xs, YieldsList yields found xs) ↔ ∀ v ∈ found, ∃ blocks : List Block,
      v = .list (blocks.map .map) ∧ ∀ b ∈ blocks, ∃ x, yields b x := by
  cases found with
  | none => simp [YieldsList]
  | some v =>
    simp only [YieldsList, Option.mem_def, Option.some.injEq, forall_eq']
    rw [exists_comm]
    simp only [exists_and_left, exists_forall₂_iff]

end Found

/-- Reads of a block. Reads that stand side by side, as the children of a node do, are made from
left to right. -/
inductive ReadTree : Type 1
  | leaf (α : Type) [OfValue α] (key : String)
  | node (key : String) (item : ReadTree)
  | both (left right : ReadTree)
  | nothing

/-- A value that a read looks at, on its path from the top, and what it has to be. -/
structure Visit where
  path : List PathStep
  expected : String
  value : Value
  fits : Bool

def Visit.mismatch (visit : Visit) : TypeMismatch :=
  ⟨dotted visit.path, visit.expected, visit.value.typeName⟩

namespace ReadTree

def Result : ReadTree → Type
  | @leaf α _ _ => α
  | .node _ item => List item.Result
  | .both left right => left.Result × right.Result
  | .nothing => Unit

def read : (t : ReadTree) → Reading → Except TypeMismatch t.Result
  | @leaf α _ key, r => r.get α key
  | .node key item, r => r.blocks key item.read
  | .both left right, r => do return (← left.read r, ← right.read r)
  | .nothing, _ => return ()

def Fits : ReadTree → Block → Prop
  | @leaf α _ key, block => ∀ v ∈ block.get? key, ∃ x : α, ofValue? v = some x
  | .node key item, block => ∀ v ∈ block.get? key, ∃ blocks : List Block,
      v = .list (blocks.map .map) ∧ ∀ b ∈ blocks, item.Fits b
  | .both left right, block => left.Fits block ∧ right.Fits block
  | .nothing, _ => True

def Yields : (t : ReadTree) → Block → t.Result → Prop
  | @leaf α _ key, block, x => YieldsValue (α := α) (block.get? key) x
  | .node key item, block, xs => YieldsList item.Yields (block.get? key) xs
  | .both left right, block, x => left.Yields block x.1 ∧ right.Yields block x.2
  | .nothing, _, _ => True

def visitsItem (inner : List PathStep → Block → List Visit) (place : List PathStep) (v : Value) :
    List Visit :=
  ⟨place, "map", v, v.block?.isSome⟩ :: v.block?.toList.flatMap (inner place)

def visitsList (inner : List PathStep → Block → List Visit) (place : List PathStep) (v : Value) :
    List Visit :=
  ⟨place, "list", v, v.items?.isSome⟩ :: (v.items?.getD []).zipIdx.flatMap fun entry =>
    visitsItem inner (place ++ [.index entry.2]) entry.1

/-- All that is looked at in a block that `path` leads to, were nothing to fail: depth first, and
from left to right. -/
def visits : ReadTree → List PathStep → Block → List Visit
  | @leaf α _ key, path, block => (block.get? key).toList.map fun v =>
      ⟨path ++ [.key key], OfValue.typeName α, v, (ofValue? (α := α) v).isSome⟩
  | .node key item, path, block =>
      (block.get? key).toList.flatMap (visitsList item.visits (path ++ [.key key]))
  | .both left right, path, block => left.visits path block ++ right.visits path block
  | .nothing, _, _ => []

end ReadTree

def firstMisfit? (visits : List Visit) : Option Visit := visits.find? fun visit => !visit.fits

section FirstMisfit
variable {visit : Visit} {visits rest : List Visit} {e : TypeMismatch}

/-- What the first misfit of some visits is reported as. -/
def Blamed (visits : List Visit) (e : TypeMismatch) : Prop :=
  ∃ visit, firstMisfit? visits = some visit ∧ e = visit.mismatch

theorem not_blamed_nil : ¬Blamed [] e := nofun

theorem blamed_cons : Blamed (visit :: visits) e ↔
    visit.fits = false ∧ e = visit.mismatch ∨ visit.fits = true ∧ Blamed visits e := by
  unfold Blamed firstMisfit?
  cases h : visit.fits <;> simp [h]

/-- The first misfit is in front, or there is none in front. -/
theorem blamed_append : Blamed (visits ++ rest) e ↔
    Blamed visits e ∨ firstMisfit? visits = none ∧ Blamed rest e := by
  unfold Blamed firstMisfit?
  rw [List.find?_append]
  cases visits.find? fun visit => !visit.fits <;> simp

/-- What fails with what is blamed succeeds where nothing is. -/
theorem exists_ok_iff_of_error_iff {α : Type} {x : Except TypeMismatch α}
    (h : ∀ e, x = .error e ↔ Blamed visits e) :
    (∃ a, x = .ok a) ↔ firstMisfit? visits = none := by
  cases x with
  | ok a =>
    refine iff_of_true ⟨a, rfl⟩ ?_
    cases hfirst : firstMisfit? visits with
    | none => rfl
    | some visit => cases (h visit.mismatch).2 ⟨visit, hfirst, rfl⟩
  | error e =>
    obtain ⟨visit, hvisit, -⟩ := (h e).1 rfl
    rw [hvisit]
    exact iff_of_false nofun nofun

/-- Two computations one after the other blame what the first does, or else what the second does. -/
theorem pair_eq_error_iff {α β : Type} {x : Except TypeMismatch α} {y : Except TypeMismatch β}
    (hx : ∀ e, x = .error e ↔ Blamed visits e) (hy : ∀ e, y = .error e ↔ Blamed rest e) :
    (do return (← x, ← y)) = .error e ↔ Blamed (visits ++ rest) e := by
  rw [bind_eq_error_iff, hx, blamed_append, ← exists_ok_iff_of_error_iff hx, ← exists_and_right]
  simp only [bind_pure_eq_error_iff, hy]

end FirstMisfit

theorem pair_eq_ok_iff {ε α β : Type} {x : Except ε α} {y : Except ε β} {p : α × β} :
    (do return (← x, ← y)) = .ok p ↔ x = .ok p.1 ∧ y = .ok p.2 := by
  simp only [bind_eq_ok_iff]
  constructor
  · rintro ⟨a, ha, b, hb, hp⟩
    cases hp
    exact ⟨ha, hb⟩
  · rintro ⟨ha, hb⟩
    exact ⟨_, ha, _, hb, rfl⟩

def Reading.under (path : List PathStep) (block : Block) : Reading :=
  ⟨block, if path.isEmpty then none else some (dotted path)⟩

namespace Reading
variable {α : Type} {read : Reading → Except TypeMismatch α} {place : List PathStep}

/-- A nested block is read under the text of its path. -/
theorem nested_dotted (path : List PathStep) (step : PathStep) (block : Block) :
    nested block (dotted (path ++ [step])) = under (path ++ [step]) block := by
  rw [under, if_neg (by simp)]
  rfl

theorem qualified_under (path : List PathStep) (block : Block) (key : String) :
    (under path block).qualified key = dotted (path ++ [.key key]) := by
  cases path with
  | nil => rfl
  | cons step path =>
    rw [dotted_concat (List.cons_ne_nil _ _)]
    rfl

/-- An item that is a block is read where its list and its position lead to. -/
theorem items_map_cons (hplace : place ≠ []) (index : Nat) (block : Block) (values : List Value) :
    items (dotted place) read index (.map block :: values) = do
      let x ← read (.under (place ++ [.index index]) block)
      let xs ← items (dotted place) read (index + 1) values
      return x :: xs := by
  rw [items, dotted_index hplace, nested_dotted]

section Get
variable [OfValue α] {path : List PathStep} {block : Block} {key : String}

/-- A leaf is blamed on the whole path that leads to it. -/
theorem get_under_eq_error_iff {e : TypeMismatch} : (under path block).get α key = .error e ↔
    Blamed ((block.get? key).toList.map fun v =>
      ⟨path ++ [.key key], OfValue.typeName α, v, (ofValue? (α := α) v).isSome⟩) e := by
  rw [get, qualified_under]
  change (match block.get? key with | none => _ | some v => _) = _ ↔ _
  cases block.get? key with
  | none => exact iff_of_false nofun not_blamed_nil
  | some v =>
    rw [Option.toList_some, List.map_singleton, blamed_cons]
    cases hv : ofValue? (α := α) v with
    | none => simp [hv, Visit.mismatch, not_blamed_nil, eq_comm]
    | some x => simp [hv, not_blamed_nil]

theorem get_under_eq_ok_iff {x : α} :
    (under path block).get α key = .ok x ↔ YieldsValue (block.get? key) x := by
  unfold get YieldsValue
  change (match block.get? key with | none => _ | some v => _) = _ ↔ _
  cases block.get? key with
  | none => rw [Except.ok.injEq, eq_comm]
  | some v => cases hv : ofValue? (α := α) v <;> simp [hv]

end Get

section Error
variable {inner : List PathStep → Block → List Visit} {e : TypeMismatch}
  (h : ∀ path block e, read (.under path block) = .error e ↔ Blamed (inner path block) e)
include h

/-- An item is blamed on its position in the list. -/
theorem items_under_eq_error_iff (hplace : place ≠ []) {index : Nat} {values : List Value} :
    items (dotted place) read index values = .error e ↔
      Blamed ((values.zipIdx index).flatMap fun entry =>
        ReadTree.visitsItem inner (place ++ [.index entry.2]) entry.1) e := by
  induction values generalizing index with
  | nil => exact iff_of_false nofun not_blamed_nil
  | cons v values ih =>
    rw [List.zipIdx_cons, List.flatMap_cons, ReadTree.visitsItem, List.cons_append, blamed_cons]
    cases hv : v.block? with
    | some block =>
      cases Value.block?_eq_some_iff.1 hv
      rw [items_map_cons hplace, bind_eq_error_iff, h]
      simp only [bind_pure_eq_error_iff, exists_and_right, exists_ok_iff_of_error_iff (h _ _), ih]
      simp [blamed_append]
    | none =>
      rw [items_of_no_map (Value.ne_map_of_block? hv), dotted_index hplace, Except.error.injEq,
        eq_comm]
      exact ((or_iff_left nofun).trans (and_iff_right rfl)).symm

theorem blocks_under_eq_error_iff {path : List PathStep} {block : Block} {key : String} :
    (under path block).blocks key read = .error e ↔ Blamed
      ((block.get? key).toList.flatMap (ReadTree.visitsList inner (path ++ [.key key]))) e := by
  cases hget : block.get? key with
  | none =>
    rw [blocks_of_none hget]
    exact iff_of_false nofun not_blamed_nil
  | some v =>
    rw [Option.toList_some, List.flatMap_singleton, ReadTree.visitsList, blamed_cons]
    cases hv : v.items? with
    | some values =>
      cases Value.items?_eq_some_iff.1 hv
      rw [blocks_of_list hget, qualified_under, items_under_eq_error_iff h (by simp)]
      exact ((or_iff_right nofun).trans (and_iff_right rfl)).symm
    | none =>
      rw [blocks_of_no_list hget (Value.ne_list_of_items? hv), qualified_under,
        Except.error.injEq, eq_comm]
      exact ((or_iff_left nofun).trans (and_iff_right rfl)).symm

end Error

section Ok
variable {yields : Block → α → Prop} {xs : List α}
  (h : ∀ path block x, read (.under path block) = .ok x ↔ yields block x)
include h

/-- All items have to be blocks, and yield one result each. -/
theorem items_under_eq_ok_iff (hplace : place ≠ []) {index : Nat} {values : List Value} :
    items (dotted place) read index values = .ok xs ↔
      ∃ blocks : List Block, values = blocks.map .map ∧ List.Forall₂ yields blocks xs := by
  induction values generalizing index xs with
  | nil =>
    rw [items, Except.ok.injEq, eq_comm]
    constructor
    · rintro rfl
      exact ⟨[], rfl, .nil⟩
    · rintro ⟨blocks, hblocks, hyields⟩
      cases List.map_eq_nil_iff.1 hblocks.symm
      exact List.forall₂_nil_left_iff.1 hyields
  | cons v values ih =>
    cases hv : v.block? with
    | some block =>
      cases Value.block?_eq_some_iff.1 hv
      rw [items_map_cons hplace, bind_eq_ok_iff]
      simp only [bind_eq_ok_iff, h, ih]
      constructor
      · rintro ⟨x, hx, ys, ⟨blocks, rfl, hyields⟩, hxs⟩
        cases hxs
        exact ⟨block :: blocks, rfl, .cons hx hyields⟩
      · rintro ⟨blocks, hblocks, hyields⟩
        cases hyields with
        | nil => cases hblocks
        | @cons b x blocks ys hx hyields =>
          obtain ⟨hb, hrest⟩ := List.cons.inj hblocks
          cases hb
          exact ⟨x, hx, ys, ⟨blocks, hrest, hyields⟩, rfl⟩
    | none =>
      rw [items_of_no_map (Value.ne_map_of_block? hv)]
      constructor
      · intro hok
        cases hok
      · rintro ⟨blocks, hblocks, -⟩
        cases blocks with
        | nil => cases hblocks
        | cons b blocks => exact absurd (List.cons.inj hblocks).1 (Value.ne_map_of_block? hv b)

theorem blocks_under_eq_ok_iff {path : List PathStep} {block : Block} {key : String} :
    (under path block).blocks key read = .ok xs ↔ YieldsList yields (block.get? key) xs := by
  unfold YieldsList
  cases hget : block.get? key with
  | none => rw [blocks_of_none hget, Except.ok.injEq, eq_comm]
  | some v =>
    cases hv : v.items? with
    | some values =>
      cases Value.items?_eq_some_iff.1 hv
      rw [blocks_of_list hget, qualified_under, items_under_eq_ok_iff h (by simp)]
      simp only [Value.list.injEq]
    | none =>
      rw [blocks_of_no_list hget (Value.ne_list_of_items? hv)]
      constructor
      · intro hok
        cases hok
      · rintro ⟨blocks, hblocks, -⟩
        exact absurd hblocks (Value.ne_list_of_items? hv _)

end Ok
end Reading

namespace ReadTree

/-- A read fails with the first misfit of what it looks at. -/
theorem read_eq_error_iff (t : ReadTree) (path : List PathStep) (block : Block) (e : TypeMismatch) :
    t.read (.under path block) = .error e ↔ Blamed (t.visits path block) e := by
  -- for every path, since the items of a node are read further down
  induction t generalizing path block e with
  | leaf α key => exact Reading.get_under_eq_error_iff
  | node key item ih => exact Reading.blocks_under_eq_error_iff ih
  | both left right ihl ihr => exact pair_eq_error_iff (ihl path block) (ihr path block)
  | nothing => exact iff_of_false nofun not_blamed_nil

/-- A read that succeeds yields what is there. -/
theorem read_eq_ok_iff (t : ReadTree) (path : List PathStep) (block : Block) (x : t.Result) :
    t.read (.under path block) = .ok x ↔ t.Yields block x := by
  induction t generalizing path block with
  | leaf α key => exact Reading.get_under_eq_ok_iff
  | node key item ih => exact Reading.blocks_under_eq_ok_iff ih
  | both left right ihl ihr =>
    exact pair_eq_ok_iff.trans (and_congr (ihl path block x.1) (ihr path block x.2))
  | nothing => exact iff_of_true rfl trivial

/-- What fits is what can be read. -/
theorem fits_iff (t : ReadTree) (block : Block) : t.Fits block ↔ ∃ x, t.Yields block x := by
  induction t generalizing block with
  | leaf α key => exact (exists_yieldsValue_iff (α := α)).symm
  | node key item ih =>
    refine Iff.trans ?_ exists_yieldsList_iff.symm
    simp only [Fits, ih]
  | both left right ihl ihr =>
    rw [Fits, ihl, ihr]
    constructor
    · rintro ⟨⟨x, hx⟩, y, hy⟩
      exact ⟨(x, y), hx, hy⟩
    · rintro ⟨x, hl, hr⟩
      exact ⟨⟨x.1, hl⟩, x.2, hr⟩
  | nothing => exact iff_of_true trivial ⟨(), trivial⟩

/-- What is looked at is what stands at the end of its path. -/
theorem follow?_of_mem_visits {top : Value} (t : ReadTree) {path : List PathStep} {block : Block}
    {visit : Visit} (h : top.follow? path = some (.map block))
    (hmem : visit ∈ t.visits path block) : top.follow? visit.path = some visit.value := by
  induction t generalizing path block with
  | leaf α key =>
    simp only [visits, List.mem_map, Option.mem_toList] at hmem
    obtain ⟨v, hv, rfl⟩ := hmem
    exact (Value.follow?_concat h (.key key)).trans hv
  | node key item ih =>
    simp only [visits, List.mem_flatMap, Option.mem_toList] at hmem
    obtain ⟨v, hv, hmem⟩ := hmem
    have hlist := (Value.follow?_concat h (.key key)).trans hv
    rw [visitsList, List.mem_cons, List.mem_flatMap] at hmem
    rcases hmem with rfl | ⟨⟨w, index⟩, hentry, hmem⟩
    · exact hlist
    · cases hitems : v.items? with
      | none => simp [hitems] at hentry
      | some items =>
        cases Value.items?_eq_some_iff.1 hitems
        have hw := (Value.follow?_concat hlist (.index index)).trans
          (List.mem_zipIdx_iff_getElem?.1 hentry)
        rw [visitsItem, List.mem_cons, List.mem_flatMap] at hmem
        rcases hmem with rfl | ⟨inner, hinner, hmem⟩
        · exact hw
        · cases Value.block?_eq_some_iff.1 (Option.mem_toList.1 hinner)
          exact ih hw hmem
  | both left right ihl ihr =>
    rcases List.mem_append.1 hmem with hmem | hmem
    · exact ihl h hmem
    · exact ihr h hmem
  | nothing => cases hmem

/-- A read of any depth succeeds exactly where all that it looks at fits, and then yields one result
for each item of each list. Otherwise its error names the first misfit on the way, by the path that
leads to it from the top and by the type of the value that stands there. -/
theorem read_locates (t : ReadTree) (s : DeclaredState) :
    ((∃ x, t.read (.ofState s) = .ok x) ↔ t.Fits s.values) ∧
    (∀ x, t.read (.ofState s) = .ok x ↔ t.Yields s.values x) ∧
    ∀ e, t.read (.ofState s) = .error e ↔
      ∃ visit, firstMisfit? (t.visits [] s.values) = some visit ∧
        (Value.map s.values).follow? visit.path = some visit.value ∧
        e = ⟨dotted visit.path, visit.expected, visit.value.typeName⟩ := by
  refine ⟨?_, t.read_eq_ok_iff [] s.values, fun e => (t.read_eq_error_iff [] s.values e).trans ?_⟩
  · rw [fits_iff]
    exact exists_congr (t.read_eq_ok_iff [] s.values)
  · refine exists_congr fun visit => and_congr_right fun hfirst => (and_iff_right ?_).symm
    exact t.follow?_of_mem_visits rfl (List.mem_of_find?_eq_some hfirst)

example : (node "trap_target" (leaf UInt32 "port")).read (.ofState ⟨none,
    OrderedMap.ofList [("trap_target",
      .list [.map .nil, .map (OrderedMap.ofList [("port", .string "162")])])]⟩) =
    .error ⟨"trap_target.1.port", "int", "string"⟩ := rfl

end ReadTree
end Reconciler
