import Reconciler.Api.DocumentServer

/-! One request to a document server. The reply, and what stands at the path of the request from
then on, follow from the script for the request and from what stood there before. Nothing else
changes in the store. -/
namespace Reconciler.DocumentServer

/-- What a request comes to at its path: the reply, and the document that is there afterwards. -/
def exchangeAt (script : Option Reply) (stored : Option (List UInt8)) (method : Method)
    (body : Option (List UInt8)) : Reply × Option (List UInt8) :=
  match script with
  | some reply => (reply, stored)
  | none =>
    match method, stored with
    | .get, some document => (ok document, some document)
    | .get, none => (missing, none)
    | .put, _ | .post, _ =>
      (ok (body.getD (Utf8.encode "\x7b\x7d")), some (body.getD (Utf8.encode "\x7b\x7d")))
    | .delete, some _ => (ok [], none)
    | .delete, none => (missing, none)

def effect (s : DocumentServer) (request : Request) : Reply × Option (List UInt8) :=
  exchangeAt (s.scripts.lookup (request.method, pathOf request.url))
    (s.documents.get? (pathOf request.url)) request.method request.body

/-- Nothing matters but the scripts and the document at the path of the request. -/
theorem effect_congr {s t : DocumentServer} {request : Request} (hscripts : s.scripts = t.scripts)
    (hstored : s.documents.get? (pathOf request.url) = t.documents.get? (pathOf request.url)) :
    s.effect request = t.effect request := by
  rw [effect, effect, hscripts, hstored]

section Serve
variable (documents : OrderedMap (List UInt8)) (method : Method) (path : String)
  (body : Option (List UInt8))

theorem serve_fst : (serve documents method path body).1 =
    (exchangeAt none (documents.get? path) method body).1 := by
  cases method with
  | get | delete =>
    unfold serve
    cases documents.get? path <;> rfl
  | put | post => rfl

theorem get?_serve (p : String) : (serve documents method path body).2.get? p =
    if p = path then (exchangeAt none (documents.get? path) method body).2
    else documents.get? p := by
  cases method with
  | get =>
    unfold serve
    by_cases hp : p = path
    · subst hp
      cases hd : documents.get? p <;> simp [exchangeAt, hd]
    · cases documents.get? path <;> simp [hp]
  | put | post =>
    simp only [serve, OrderedMap.get?_insert]
    rfl
  | delete =>
    unfold serve
    cases hd : documents.get? path with
    | none =>
      by_cases hp : p = path
      · subst hp
        simp [exchangeAt, hd]
      · simp [hp]
    | some document =>
      simp only [Ascending.get?_erase]
      rfl

end Serve

section Reply
variable (s : DocumentServer) (request : Request)

section Lookup
variable {s request}

theorem reply_of_script {reply : Reply}
    (h : s.scripts.lookup (request.method, pathOf request.url) = some reply) :
    s.reply request = (reply, s) := by
  simp only [DocumentServer.reply, h]

theorem reply_of_unscripted
    (h : s.scripts.lookup (request.method, pathOf request.url) = none) :
    s.reply request =
      let served := serve s.documents request.method (pathOf request.url) request.body
      (served.1, { s with documents := served.2 }) := by
  simp only [DocumentServer.reply, h]

end Lookup

theorem reply_fst : (s.reply request).1 = (s.effect request).1 := by
  unfold effect
  cases h : s.scripts.lookup (request.method, pathOf request.url) with
  | some reply => rw [reply_of_script h, exchangeAt]
  | none =>
    rw [reply_of_unscripted h]
    exact serve_fst ..

/-- A request leaves the documents at all other paths alone. -/
theorem get?_reply (p : String) : (s.reply request).2.documents.get? p =
    if p = pathOf request.url then (s.effect request).2 else s.documents.get? p := by
  unfold effect
  cases h : s.scripts.lookup (request.method, pathOf request.url) with
  | some reply =>
    rw [reply_of_script h, exchangeAt]
    split
    · next hp => rw [hp]
    · rfl
  | none =>
    rw [reply_of_unscripted h]
    exact get?_serve ..

@[simp] theorem scripts_reply : (s.reply request).2.scripts = s.scripts := by
  cases h : s.scripts.lookup (request.method, pathOf request.url) with
  | some reply => rw [reply_of_script h]
  | none => rw [reply_of_unscripted h]

@[simp] theorem requests_reply : (s.reply request).2.requests = s.requests := by
  cases h : s.scripts.lookup (request.method, pathOf request.url) with
  | some reply => rw [reply_of_script h]
  | none => rw [reply_of_unscripted h]

@[simp] theorem scripts_arrive : (s.arrive request).scripts = s.scripts := by
  unfold arrive
  split <;> rfl

@[simp] theorem documents_arrive : (s.arrive request).documents = s.documents := by
  unfold arrive
  split <;> rfl

@[simp] theorem requests_arrive : (s.arrive request).requests = s.requests ++ [request] := by
  unfold arrive
  split <;> rfl

@[simp] theorem scripts_depart : (s.depart request).scripts = s.scripts := by
  unfold depart
  split <;> rfl

@[simp] theorem documents_depart : (s.depart request).documents = s.documents := by
  unfold depart
  split <;> rfl

@[simp] theorem requests_depart : (s.depart request).requests = s.requests := by
  unfold depart
  split <;> rfl

theorem effect_arrive (other : Request) : (s.arrive other).effect request = s.effect request :=
  effect_congr (scripts_arrive ..) (by rw [documents_arrive])

theorem answer_fst : (answer request s).1 = (s.effect request).1 :=
  (reply_fst ..).trans (congrArg Prod.fst (s.effect_arrive request request))

@[simp] theorem scripts_answer : (answer request s).2.scripts = s.scripts := by
  simp [answer]

theorem get?_answer (p : String) : (answer request s).2.documents.get? p =
    if p = pathOf request.url then (s.effect request).2 else s.documents.get? p := by
  simp [answer, get?_reply, effect_arrive]

section Run
variable {α : Type} (receive : Reply → α)

/-- A call that makes an exchange goes on from what its request comes to. -/
theorem run_exchange_fst :
    ((Call.exchange request receive).run server s).1 = receive (s.effect request).1 :=
  congrArg receive (answer_fst ..)

theorem scripts_run_exchange :
    ((Call.exchange request receive).run server s).2.scripts = s.scripts := scripts_answer ..

/-- An exchange leaves the documents at all other paths alone. -/
theorem get?_run_exchange (p : String) :
    ((Call.exchange request receive).run server s).2.documents.get? p =
      if p = pathOf request.url then (s.effect request).2 else s.documents.get? p :=
  get?_answer ..

end Run
end Reply

def Unscripted (s : DocumentServer) (path : String) : Prop :=
  ∀ method, s.scripts.lookup (method, path) = none

section Unscripted
variable {s : DocumentServer} {c : Client} {path : String}
  (h : s.Unscripted (pathOf (c.baseUrl ++ path)))
include h

/-- Without a script a request comes to what it comes to by the document alone. -/
theorem effect_unscripted (method : Method) (body : Option (List UInt8)) :
    s.effect (c.request method path body) =
      exchangeAt none (s.documents.get? (pathOf (c.baseUrl ++ path))) method body :=
  congrArg (exchangeAt · (s.documents.get? (pathOf (c.baseUrl ++ path))) method body) (h method)

/-- What is put at a path is stored there, and sent back. -/
theorem effect_put (body : List UInt8) :
    s.effect (c.request .put path (some body)) = (ok body, some body) :=
  effect_unscripted h .put (some body)

theorem effect_get {document : List UInt8}
    (hstored : s.documents.get? (pathOf (c.baseUrl ++ path)) = some document) :
    s.effect (c.request .get path none) = (ok document, some document) := by
  rw [effect_unscripted h, hstored, exchangeAt]

theorem effect_get_missing (hstored : s.documents.get? (pathOf (c.baseUrl ++ path)) = none) :
    s.effect (c.request .get path none) = (missing, none) := by
  rw [effect_unscripted h, hstored, exchangeAt]

end Unscripted
end Reconciler.DocumentServer
