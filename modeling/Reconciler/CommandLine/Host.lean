import Reconciler.Api.Call
import Reconciler.CommandLine.Workspace
import Reconciler.Settings
import Reconciler.Terminal.Messages
import Reconciler.Time.Timestamp

/-! Where commands run: a workspace of files, a server, and two streams of output. -/
namespace Reconciler.CommandLine

structure Host (σ : Type) where
  workspace : Workspace
  server : σ
  output : String
  complaints : String

structure Context (σ : Type) where
  quiet : Bool
  config : Option String
  env : Environment
  server : Server σ
  now : Timestamp

def Context.color {σ : Type} (c : Context σ) : Bool := Terminal.wantsColor c.env

structure Complaint where
  message : String
  cause : Option String
deriving DecidableEq

/-- The cause stands below the message, each of its lines indented. -/
def Complaint.text (c : Complaint) : String :=
  match c.cause with
  | none => s!"Error: {c.message}\n"
  | some cause =>
    let indented := (Diff.lines cause).map fun line => s!"    {line}\n"
    s!"Error: {c.message}\n\nCaused by:\n" ++ .join indented

/-- A command that may give up. What it did to its host before that stays done. -/
abbrev Task (σ α : Type) := ExceptT Complaint (StateM (Host σ)) α

namespace Task
variable {σ α : Type}

def giveUp (message : String) (cause : Option String) : Task σ α := throw ⟨message, cause⟩

def say (text : String) : Task σ Unit := modify fun h => { h with output := h.output ++ text }

def complain (text : String) : Task σ Unit :=
  modify fun h => { h with complaints := h.complaints ++ text }

def exchange (c : Context σ) (call : Call α) : Task σ α := do
  let h ← get
  let (a, w) := call.run c.server h.server
  set { h with server := w }
  return a

def contents (failure path : String) : Task σ String := do
  match (← get).workspace.read path with
  | .ok text => return text
  | .error e => giveUp s!"{failure}{path}" e.message

/-- Write JSON to a file, indented and with a line feed behind it. Missing directories are made. -/
def writeJson (path : String) (j : Json) : Task σ Unit := do
  let above := (Workspace.parent? path).getD ""
  match Workspace.makeDirectories (path.length + 1) above (← get).workspace with
  | .error e => giveUp s!"Failed to create directory: {above}" e.message
  | .ok w => modify fun h => { h with workspace := w }
  match (← get).workspace.write path (j.pretty ++ "\n") with
  | .error e => giveUp s!"Failed to write {path}" e.message
  | .ok w => modify fun h => { h with workspace := w }

end Task
end Reconciler.CommandLine
