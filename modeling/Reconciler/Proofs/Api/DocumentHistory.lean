import Mathlib.Data.List.Induction
import Reconciler.Proofs.Api.DocumentServer

/-! A document server told by its history. A script holds from the moment it is set until the next
one for its method and path; a document stands from the moment it is stored until an event stores
another at its path or removes it. What a request is answered follows from these two alone. -/
namespace Reconciler.DocumentServer

inductive Event
  | respond (method : Method) (path : String) (status : UInt16) (body : String)
  | disconnect (method : Method) (path : String)
  | putDocument (path : String) (document : Json)
  | request (request : Request)

namespace Event

def request? : Event → Option Request
  | .request r => some r
  | _ => none

def next (s : DocumentServer) : Event → DocumentServer
  | .respond method path status body => s.respond method path status body
  | .disconnect method path => s.disconnect method path
  | .putDocument path document => s.putDocument path document
  | .request r => (answer r s).2

def reply? (s : DocumentServer) (event : Event) : Option Reply :=
  event.request?.map fun request => (answer request s).1

def script? (method : Method) (path : String) : Event → Option Reply
  | .respond m p status body =>
    if (method, path) = (m, p) then some (.response ⟨status, Utf8.encode body⟩) else none
  | .disconnect m p =>
    if (method, path) = (m, p) then some (.lost "connection reset by peer") else none
  | _ => none

end Event

def after (history : List Event) : DocumentServer := history.foldl Event.next empty

def asked (history : List Event) : List Request := history.filterMap Event.request?

def replies (s : DocumentServer) : List Event → List Reply
  | [] => []
  | event :: events => (event.reply? s).toList ++ replies (event.next s) events

def scripted (history : List Event) (method : Method) (path : String) : Bool :=
  history.any fun event => (event.script? method path).isSome

def content (request : Request) : List UInt8 := request.body.getD (Utf8.encode "\x7b\x7d")

/-- What an event does to the document at a path, given what has happened before it: some bytes
are stored, what is there is removed, or the path is left alone. -/
def Event.document? (before : List Event) (path : String) : Event → Option (Option (List UInt8))
  | .putDocument p document =>
    if path = p then some (some (Utf8.encode document.compact)) else none
  | .request r =>
    if path = pathOf r.url ∧ scripted before r.method path = false then
      match r.method with
      | .get => none
      | .put | .post => some (some (content r))
      | .delete => some none
    else none
  | _ => none

/-- Some event of a history has set a thing to `x`, and no event behind it has set or removed it.
Each event is judged by what came before it. -/
def Stands {α : Type} (change : List Event → Event → Option (Option α)) (history : List Event)
    (x : α) : Prop :=
  ∃ before event later, history = before ++ event :: later ∧ change before event = some (some x) ∧
    ∀ middle next rest, later = middle ++ next :: rest →
      change (before ++ event :: middle) next = none

def Scripts (history : List Event) (method : Method) (path : String) (reply : Reply) : Prop :=
  Stands (fun _ event => (event.script? method path).map some) history reply

def Stores (history : List Event) (path : String) (body : List UInt8) : Prop :=
  Stands (fun before event => event.document? before path) history body

section Stands
variable {α : Type} {change : List Event → Event → Option (Option α)} {x : α}

theorem not_stands_nil : ¬Stands change [] x := by
  rintro ⟨before, event, later, h, -⟩
  cases before <;> cases h

/-- Lists with an item at their end, one of which has another item marked further up. -/
theorem concat_eq_append_cons_iff {β : Type} {xs ys zs : List β} {a b c : β} :
    xs ++ [a] = ys ++ b :: (zs ++ [c]) ↔ xs = ys ++ b :: zs ∧ a = c := by
  rw [← List.cons_append, ← List.append_assoc]
  exact List.append_singleton_inj

/-- The last event has set the thing, or it stands from before and the last event leaves it. -/
theorem stands_concat {history : List Event} {event : Event} :
    Stands change (history ++ [event]) x ↔ change history event = some (some x) ∨
      change history event = none ∧ Stands change history x := by
  constructor
  · rintro ⟨before, first, later, h, hset, hkept⟩
    cases later using List.reverseRecOn with
    | nil =>
      obtain ⟨rfl, rfl⟩ := List.append_singleton_inj.1 h
      exact .inl hset
    | append_singleton middle last =>
      obtain ⟨rfl, rfl⟩ := concat_eq_append_cons_iff.1 h
      refine .inr ⟨hkept middle event [] rfl, before, first, middle, rfl, hset, ?_⟩
      rintro middle next rest rfl
      exact hkept middle next (rest ++ [event]) (by simp)
  · rintro (hset | ⟨hnone, before, first, later, rfl, hset, hkept⟩)
    · exact ⟨history, event, [], rfl, hset, by simp⟩
    · refine ⟨before, first, later ++ [event], by simp, hset, fun middle next rest h => ?_⟩
      cases rest using List.reverseRecOn with
      | nil =>
        obtain ⟨rfl, rfl⟩ := List.append_singleton_inj.1 h
        exact hnone
      | append_singleton rest last =>
        exact hkept middle next rest (concat_eq_append_cons_iff.1 h).1

end Stands

theorem after_concat (history : List Event) (event : Event) :
    after (history ++ [event]) = event.next (after history) := by
  rw [after, List.foldl_append]
  rfl

/-- What is read off a server stands in its history, if it is read off none that is new and each
event does to it what it is said to do. -/
theorem eq_some_iff_stands {α : Type} {change : List Event → Event → Option (Option α)}
    (look : DocumentServer → Option α) (fresh : look empty = none)
    (step : ∀ history event,
      look (event.next (after history)) = (change history event).getD (look (after history)))
    (history : List Event) (x : α) : look (after history) = some x ↔ Stands change history x := by
  -- from the end of the history, as each event is judged by what came before it
  induction history using List.reverseRecOn with
  | nil => exact iff_of_false (fun h => nomatch fresh.symm.trans h) not_stands_nil
  | append_singleton history event ih =>
    rw [after_concat, step, stands_concat, ← ih]
    cases change history event <;> simp

section Script
variable (method : Method) (path : String)

theorem lookup_script (s : DocumentServer) (m : Method) (p : String) (reply : Reply) :
    (s.script m p reply).scripts.lookup (method, path) =
      if (method, path) = (m, p) then some reply else s.scripts.lookup (method, path) := by
  rw [script, List.lookup_cons]
  by_cases h : (method, path) = (m, p)
  · rw [if_pos h, beq_iff_eq.2 h]
  · rw [if_neg h, beq_eq_false_iff_ne.2 h]

theorem lookup_next (s : DocumentServer) (event : Event) :
    (event.next s).scripts.lookup (method, path) =
      ((event.script? method path).map some).getD (s.scripts.lookup (method, path)) := by
  cases event with
  | respond | disconnect =>
    refine (lookup_script ..).trans ?_
    rw [Event.script?]
    split <;> rfl
  | putDocument => rfl
  | request r => exact congrArg (List.lookup (method, path)) (scripts_answer s r)

/-- The scripts of a server are the latest of its history. -/
theorem lookup_after_iff (history : List Event) (reply : Reply) :
    (after history).scripts.lookup (method, path) = some reply ↔
      Scripts history method path reply :=
  eq_some_iff_stands (fun s => s.scripts.lookup (method, path)) rfl
    (fun history => lookup_next method path (after history)) history reply

theorem isSome_lookup_after (history : List Event) :
    ((after history).scripts.lookup (method, path)).isSome = scripted history method path := by
  induction history using List.reverseRecOn with
  | nil => rfl
  | append_singleton history event ih =>
    rw [after_concat, lookup_next, scripted, List.any_append, ← scripted, ← ih, List.any_cons,
      List.any_nil, Bool.or_false]
    cases event.script? method path <;> simp

end Script

section Effect
variable {before : List Event} {request : Request}

/-- A request with a script comes to the latest one. -/
theorem effect_after_scripted (h : scripted before request.method (pathOf request.url) = true) :
    ∃ reply, Scripts before request.method (pathOf request.url) reply ∧
      (after before).effect request =
        (reply, (after before).documents.get? (pathOf request.url)) := by
  rw [← isSome_lookup_after] at h
  obtain ⟨reply, hreply⟩ := Option.isSome_iff_exists.1 h
  refine ⟨reply, (lookup_after_iff ..).1 hreply, ?_⟩
  rw [effect, hreply, exchangeAt]

theorem effect_after_unscripted (h : scripted before request.method (pathOf request.url) = false) :
    (after before).effect request = exchangeAt none
      ((after before).documents.get? (pathOf request.url)) request.method request.body := by
  rw [← isSome_lookup_after, Option.isSome_eq_false_iff, Option.isNone_iff_eq_none] at h
  rw [effect, h]

end Effect

section Document
variable (path : String)

theorem get?_next (history : List Event) (event : Event) :
    (event.next (after history)).documents.get? path =
      (event.document? history path).getD ((after history).documents.get? path) := by
  cases event with
  | respond | disconnect => rfl
  | putDocument =>
    refine (OrderedMap.get?_insert ..).trans ?_
    rw [Event.document?]
    split <;> rfl
  | request r =>
    refine (get?_answer ..).trans ?_
    rw [Event.document?]
    -- a request changes the document at its own path at most, and with a script not even that
    by_cases hpath : path = pathOf r.url
    · subst hpath
      cases hscript : scripted history r.method (pathOf r.url) with
      | true =>
        obtain ⟨reply, -, heffect⟩ := effect_after_scripted hscript
        simp [heffect]
      | false =>
        rw [effect_after_unscripted hscript]
        cases hmethod : r.method with
        | get | delete => cases (after history).documents.get? (pathOf r.url) <;> simp [exchangeAt]
        | put | post => simp [exchangeAt, content]
    · simp [hpath]

/-- The documents of a server are the latest of its history. -/
theorem get?_after_iff (history : List Event) (body : List UInt8) :
    (after history).documents.get? path = some body ↔ Stores history path body :=
  eq_some_iff_stands (fun s => s.documents.get? path) rfl (get?_next path) history body

end Document

/-- What a request is answered by what has happened before it. -/
structure Answers (before : List Event) (request : Request) (reply : Reply) : Prop where
  script (h : scripted before request.method (pathOf request.url) = true) :
    Scripts before request.method (pathOf request.url) reply
  get (h : scripted before request.method (pathOf request.url) = false)
    (hmethod : request.method = .get) :
    (∃ body, Stores before (pathOf request.url) body ∧ reply = .response ⟨200, body⟩) ∨
      (∀ body, ¬Stores before (pathOf request.url) body) ∧
        reply = .response ⟨404, Utf8.encode "not found"⟩
  write (h : scripted before request.method (pathOf request.url) = false)
    (hmethod : request.method = .put ∨ request.method = .post) :
    reply = .response ⟨200, content request⟩
  delete (h : scripted before request.method (pathOf request.url) = false)
    (hmethod : request.method = .delete) :
    (∃ body, Stores before (pathOf request.url) body) ∧ reply = .response ⟨200, []⟩ ∨
      (∀ body, ¬Stores before (pathOf request.url) body) ∧
        reply = .response ⟨404, Utf8.encode "not found"⟩

/-- Requests are answered as the history has it. -/
theorem answers_effect (before : List Event) (request : Request) :
    Answers before request ((after before).effect request).1 := by
  cases hscript : scripted before request.method (pathOf request.url) with
  | true =>
    obtain ⟨reply, hreply, heffect⟩ := effect_after_scripted hscript
    rw [heffect]
    exact ⟨fun _ => hreply, by simp [hscript], by simp [hscript], by simp [hscript]⟩
  | false =>
    rw [effect_after_unscripted hscript]
    refine ⟨by simp [hscript], fun _ hmethod => ?_, fun _ hmethod => ?_, fun _ hmethod => ?_⟩
    · rw [hmethod]
      simp only [← get?_after_iff]
      cases (after before).documents.get? (pathOf request.url) with
      | some body => exact .inl ⟨body, rfl, rfl⟩
      | none => exact .inr ⟨nofun, rfl⟩
    · rcases hmethod with hmethod | hmethod <;> rw [hmethod] <;> rfl
    · rw [hmethod]
      simp only [← get?_after_iff]
      cases (after before).documents.get? (pathOf request.url) with
      | some body => exact .inl ⟨⟨body, rfl⟩, rfl⟩
      | none => exact .inr ⟨nofun, rfl⟩

/-- A request with a script leaves all documents alone. -/
theorem documents_after_scripted {before : List Event} {request : Request}
    (h : scripted before request.method (pathOf request.url) = true) :
    (after (before ++ [.request request])).documents = (after before).documents := by
  refine Ascending.ext_get? _ _ fun path => ?_
  have hleft : (Event.request request).document? before path = none := by
    refine if_neg ?_
    rintro ⟨rfl, hfree⟩
    rw [h] at hfree
    cases hfree
  rw [after_concat, get?_next, hleft, Option.getD_none]

/-- A server keeps all requests, in order. -/
theorem requests_after (history : List Event) : (after history).requests = asked history := by
  induction history using List.reverseRecOn with
  | nil => rfl
  | append_singleton history event ih =>
    rw [after_concat, asked, List.filterMap_append, ← asked, ← ih]
    cases event with
    | respond | disconnect | putDocument => exact (List.append_nil _).symm
    | request r => simp [Event.next, Event.request?, answer]

section Replies
variable (s : DocumentServer) (before later : List Event)

theorem length_replies : (replies s before).length = (asked before).length := by
  induction before generalizing s with
  | nil => rfl
  | cons event before ih =>
    rw [replies, List.length_append, ih, asked, asked, List.filterMap_cons]
    cases event <;> simp [Event.reply?, Event.request?, Nat.add_comm]

theorem replies_append : replies s (before ++ later) =
    replies s before ++ replies (before.foldl Event.next s) later := by
  induction before generalizing s with
  | nil => rfl
  | cons event before ih =>
    rw [List.cons_append, replies, replies, ih, List.append_assoc, List.foldl_cons]

/-- Each reply stands as far down as its request. -/
theorem getElem?_replies (request : Request) :
    (replies empty (before ++ .request request :: later))[(asked before).length]? =
      some (answer request (after before)).1 := by
  rw [replies_append, ← length_replies empty, List.getElem?_append_right (Nat.le_refl _),
    Nat.sub_self]
  rfl

end Replies

end Reconciler.DocumentServer
