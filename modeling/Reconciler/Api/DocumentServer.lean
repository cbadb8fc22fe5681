import Reconciler.Api.Client

/-! A server that keeps documents by path: PUT and POST store the body they carry, GET returns
what is stored, and DELETE removes it. Scripted replies come before that, and every request is
put on record. -/
namespace Reconciler

structure DocumentServer where
  /-- The latest script for a method and path stands first. -/
  scripts : List ((Method × String) × Reply)
  documents : OrderedMap (List UInt8)
  requests : List Request
  writesInFlight : Nat
  mostWritesInFlight : Nat

namespace DocumentServer

def empty : DocumentServer := ⟨[], OrderedMap.empty, [], 0, 0⟩

def afterScheme? : List Char → Option (List Char)
  | ':' :: '/' :: '/' :: r => some r
  | _ :: r => afterScheme? r
  | [] => none

/-- The path of an absolute URL: all from the first slash behind the scheme. -/
def pathOf (url : String) : String :=
  let rest := (afterScheme? url.toList).getD url.toList
  match rest.dropWhile (· ≠ '/') with
  | [] => "/"
  | path => .ofList path

def script (s : DocumentServer) (method : Method) (path : String) (reply : Reply) :
    DocumentServer :=
  { s with scripts := ((method, path), reply) :: s.scripts }

def respond (s : DocumentServer) (method : Method) (path : String) (status : UInt16)
    (body : String) : DocumentServer :=
  s.script method path (.response ⟨status, Utf8.encode body⟩)

def disconnect (s : DocumentServer) (method : Method) (path : String) : DocumentServer :=
  s.script method path (.lost "connection reset by peer")

def putDocument (s : DocumentServer) (path : String) (document : Json) : DocumentServer :=
  { s with documents := s.documents.insert path (Utf8.encode document.compact) }

def document? (s : DocumentServer) (path : String) : Option Json := do
  let body ← s.documents.get? path
  let text ← Utf8.decode? body
  (← Json.parse? text).toFree?

def withOrganization (id : String) : DocumentServer :=
  empty.respond .get organizationPath 200
    (Json.record [("id", .text id), ("name", .text (id ++ " org"))]).compact

def writes (s : DocumentServer) : List Request := s.requests.filter (·.method.isMutating)

def arrive (s : DocumentServer) (request : Request) : DocumentServer :=
  let s := { s with requests := s.requests ++ [request] }
  if request.method.isMutating then
    { s with
      writesInFlight := s.writesInFlight + 1
      mostWritesInFlight := max s.mostWritesInFlight (s.writesInFlight + 1) }
  else s

def depart (s : DocumentServer) (request : Request) : DocumentServer :=
  if request.method.isMutating then { s with writesInFlight := s.writesInFlight - 1 } else s

def ok (body : List UInt8) : Reply := .response ⟨200, body⟩

def missing : Reply := .response ⟨404, Utf8.encode "not found"⟩

/-- Store, return or remove the document at a path. A body that is left out counts as the empty
object. -/
def serve (documents : OrderedMap (List UInt8)) (method : Method) (path : String)
    (body : Option (List UInt8)) : Reply × OrderedMap (List UInt8) :=
  match method with
  | .get =>
    match documents.get? path with
    | some stored => (ok stored, documents)
    | none => (missing, documents)
  | .put | .post =>
    let stored := body.getD (Utf8.encode "\x7b\x7d")
    (ok stored, documents.insert path stored)
  | .delete =>
    match documents.get? path with
    | some _ => (ok [], documents.erase path)
    | none => (missing, documents)

def reply (s : DocumentServer) (request : Request) : Reply × DocumentServer :=
  let path := pathOf request.url
  match s.scripts.lookup (request.method, path) with
  | some reply => (reply, s)
  | none =>
    let (reply, documents) := serve s.documents request.method path request.body
    (reply, { s with documents })

def answer (request : Request) (s : DocumentServer) : Reply × DocumentServer :=
  let (reply, s) := (s.arrive request).reply request
  (reply, s.depart request)

def server : Server DocumentServer := ⟨answer⟩

end DocumentServer
end Reconciler
