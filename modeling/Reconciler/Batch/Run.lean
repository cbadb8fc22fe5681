import Reconciler.Batch.Entry
import Reconciler.Resource.Lifecycle

/-! One operation over many declared resources, sharing a client. Entries run in two phases, nodes
apart from what is attached to them; within a phase they may take their turns in any order. -/
namespace Reconciler

inductive Operation
  /-- Create entries without an identity, update the others. -/
  | apply
  /-- Read entries with an identity, and drop those that are gone. -/
  | refresh
  /-- Delete entries with an identity. -/
  | destroy
deriving DecidableEq

namespace Operation

def name : Operation → String
  | .apply => "Apply"
  | .refresh => "Refresh"
  | .destroy => "Destroy"

/-- The phase in which an operation reaches a kind. Nodes come first, except that they are
destroyed last. -/
def phase (op : Operation) (tag : String) : Nat :=
  let isNode := tag == Kind.node.tag
  match op with
  | .destroy => if isNode then 1 else 0
  | .apply | .refresh => if isNode then 0 else 1

end Operation

structure Outcome where
  kind : String
  /-- The identity, or the tag with the entry's position if it never had one. -/
  label : String
  result : ApplyResult
deriving DecidableEq

namespace Entry

def refresh (k : Kind) (c : Client) (s : DeclaredState) : Call (Step ApplyResult) :=
  (k.read c s).map fun
    | (.error e, s') => (.error e, s')
    | (.ok .absent, s') => (.ok .removed, s')
    | (.ok .present, s') => (.ok (if s'.same s then .noChange else .modified), s')

def step (c : Client) (op : Operation) (e : Entry) : Call (Step ApplyResult) :=
  match Kind.find e.kind with
  | .error failure => .settled (.error failure, e.state)
  | .ok k =>
    match op, e.state.hasId with
    | .apply, true => k.update c e.state
    | .apply, false => k.create c e.state
    | .refresh, true => refresh k c e.state
    | .destroy, true => k.delete c e.state
    | .refresh, false | .destroy, false => .settled (.ok .noChange, e.state)

def label (before after : DeclaredState) (kind : String) (index : Nat) : String :=
  (after.id <|> before.id).getD s!"{kind} #{index}"

def run (c : Client) (op : Operation) (index : Nat) (e : Entry) : Call (Entry × Outcome) :=
  (e.step c op).map fun (result, after) =>
    let result := match result with
      | .ok result => result
      | .error failure => .failed failure.message
    (⟨e.kind, after⟩, ⟨e.kind, label e.state after e.kind index, result⟩)

end Entry

/-- An entry of a running batch, with its outcome once it has one. -/
structure Slot where
  entry : Entry
  outcome : Option Outcome

structure Report where
  outcomes : List Outcome
  summary : Summary

namespace Batch
variable {σ : Type}

def turns (op : Operation) (entries : List Entry) (order : List Nat) : List Nat :=
  let inPhase (n : Nat) (i : Nat) : Bool :=
    match entries[i]? with
    | some e => op.phase e.kind == n
    | none => false
  order.filter (inPhase 0) ++ order.filter (inPhase 1)

def visit (server : Server σ) (c : Client) (op : Operation) (batch : List Slot × σ) (i : Nat) :
    List Slot × σ :=
  match batch.1[i]? with
  | none => batch
  | some slot =>
    let ((entry, outcome), w) := (slot.entry.run c op i).run server batch.2
    (batch.1.set i ⟨entry, some outcome⟩, w)

def runSlots (server : Server σ) (c : Client) (op : Operation) (order : List Nat)
    (entries : List Entry) (w : σ) : List Slot × σ :=
  (turns op entries order).foldl (visit server c op) (entries.map fun e => ⟨e, none⟩, w)

def outcomes (slots : List Slot) : List Outcome := slots.filterMap (·.outcome)

def report (slots : List Slot) : Report :=
  ⟨outcomes slots, .ofResults ((outcomes slots).map (·.result))⟩

/-- Drop what is marked. The marks are taken in order, one for each item, and an item that finds
none left stays. -/
def dropMarked {α : Type} : List Bool → List α → List α
  | gone :: marks, item :: items =>
    if gone then dropMarked marks items else item :: dropMarked marks items
  | _, items => items

/-- The entries that stay: a refresh drops those it found gone. -/
def remaining (op : Operation) (slots : List Slot) : List Entry :=
  let entries := slots.map (·.entry)
  match op with
  | .refresh => dropMarked ((outcomes slots).map (·.result = .removed)) entries
  | .apply | .destroy => entries

def runInOrder (server : Server σ) (c : Client) (op : Operation) (order : List Nat)
    (entries : List Entry) (w : σ) : (Report × List Entry) × σ :=
  let (slots, w) := runSlots server c op order entries w
  ((report slots, remaining op slots), w)

def run (server : Server σ) (c : Client) (op : Operation) (entries : List Entry) (w : σ) :
    (Report × List Entry) × σ :=
  runInOrder server c op (List.range entries.length) entries w

end Batch
end Reconciler
