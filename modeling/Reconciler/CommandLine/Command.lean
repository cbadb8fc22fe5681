import Reconciler.Batch.Run

/-! What a command line can ask for. -/
namespace Reconciler.CommandLine

inductive Shell
  | bash
  | elvish
  | fish
  | powershell
  | zsh
deriving DecidableEq

namespace Shell

def all : List Shell := [.bash, .elvish, .fish, .powershell, .zsh]

def name : Shell → String
  | .bash => "bash"
  | .elvish => "elvish"
  | .fish => "fish"
  | .powershell => "powershell"
  | .zsh => "zsh"

def ofName? (s : String) : Option Shell := all.find? fun shell => shell.name == s

end Shell

inductive Verb
  | create
  | read
  | update
  | delete
  | adopt
  | apply
  | refresh
  | destroy
  | kinds
  | completions
deriving DecidableEq

/-- The type of a positional argument. Paths must not be empty. -/
inductive ArgumentType
  | text
  | path
  | shell

def ArgumentType.accepts : ArgumentType → String → Bool
  | .text, _ => true
  | .path, s => s ≠ ""
  | .shell, s => (Shell.ofName? s).isSome

namespace Verb

def all : List Verb :=
  [.create, .read, .update, .delete, .adopt, .apply, .refresh, .destroy, .kinds, .completions]

def name : Verb → String
  | .create => "create"
  | .read => "read"
  | .update => "update"
  | .delete => "delete"
  | .adopt => "import"
  | .apply => "apply"
  | .refresh => "refresh"
  | .destroy => "destroy"
  | .kinds => "kinds"
  | .completions => "completions"

def ofName? (s : String) : Option Verb := all.find? fun verb => verb.name == s

def arguments : Verb → List ArgumentType
  | .create | .read | .update | .delete => [.text, .path]
  | .adopt => [.text, .text, .path]
  | .apply | .refresh | .destroy => [.path]
  | .kinds => []
  | .completions => [.shell]

def takesJobs : Verb → Bool
  | .apply | .refresh | .destroy => true
  | _ => false

end Verb

inductive Action
  | create
  | update
  | delete
deriving DecidableEq

inductive Command
  | write (action : Action) (kind state : String)
  | read (kind state : String)
  | adopt (kind id state : String)
  | batch (operation : Operation) (manifest : String) (jobs : Nat)
  | kinds
  | completions (shell : Shell)
deriving DecidableEq

def Command.ofArguments? (jobs : Nat) : Verb → List String → Option Command
  | .create, [kind, state] => some (.write .create kind state)
  | .read, [kind, state] => some (.read kind state)
  | .update, [kind, state] => some (.write .update kind state)
  | .delete, [kind, state] => some (.write .delete kind state)
  | .adopt, [kind, id, state] => some (.adopt kind id state)
  | .apply, [manifest] => some (.batch .apply manifest jobs)
  | .refresh, [manifest] => some (.batch .refresh manifest jobs)
  | .destroy, [manifest] => some (.batch .destroy manifest jobs)
  | .kinds, [] => some .kinds
  | .completions, [shell] => (Shell.ofName? shell).map .completions
  | _, _ => none

structure Invocation where
  verbose : Nat
  quiet : Bool
  config : Option String
  command : Command
deriving DecidableEq

end Reconciler.CommandLine
