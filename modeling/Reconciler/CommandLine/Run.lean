import Reconciler.CommandLine.Host
import Reconciler.CommandLine.Usage
import Reconciler.Manifest

/-! Running commands: load what is declared, reconcile it with the API, and save it again. -/
namespace Reconciler.CommandLine
variable {σ : Type}

def expandHome (home : Option String) (path : String) : String :=
  match path.toList, home with
  | ['~'], some home => home
  | '~' :: '/' :: r, some home => home ++ .ofList ('/' :: r)
  | _, _ => path

def Context.home (c : Context σ) : Option String := present? (c.env "HOME")

def defaultConfig (home : String) : String :=
  let slash := if home.endsWith "/" then "" else "/"
  s!"{home}{slash}.config/nodecfg/config.toml"

/-- The configuration file: the one that was named, or else the one in the home directory if it is
there. -/
def Context.configPath (c : Context σ) : Task σ (Option String) := do
  match c.config, c.home with
  | some path, home => return some (expandHome home path)
  | none, none => Task.giveUp "Could not determine home directory" none
  | none, some home =>
    let path := defaultConfig home
    return if (← get).workspace.contains path then some path else none

def Context.settings (c : Context σ) : Task σ Settings := do
  let stored ← match ← c.configPath with
    | none => pure Settings.empty
    | some path =>
      let text ← Task.contents "Could not read " path
      match Settings.parse? text with
      | some settings => pure settings
      | none => Task.giveUp s!"Invalid config format: {path}" "not a document of settings"
  return stored.override c.env

def Context.advise (c : Context σ) (e : ApiError) : Task σ Unit :=
  Task.say (Terminal.warning c.color e.category.advice)

def Context.connect (c : Context σ) : Task σ Client := do
  match (← c.settings).clientConfig with
  | .error message => Task.giveUp message none
  | .ok config =>
    match ← Task.exchange c (Client.connect config) with
    | .error e =>
      c.advise e
      Task.giveUp "Failed to connect to the API" e.message
    | .ok client =>
      if !c.quiet then
        let place := s!"{client.baseUrl} · organization {client.organization.id}"
        Task.say (Terminal.muted c.color place)
      return client

def Context.perform {α : Type} (c : Context σ) (call : Call (Step α)) :
    Task σ (α × DeclaredState) := do
  match ← Task.exchange c call with
  | (.ok a, s) => return (a, s)
  | (.error e, _) =>
    match e with
    | .api error => c.advise error
    | _ => pure ()
    Task.giveUp e.message none

def findKind (tag : String) : Task σ Kind :=
  match Kind.find tag with
  | .ok k => return k
  | .error e => Task.giveUp e.message none

/-- The state in a file; a file that is missing holds the empty one. -/
def loadState (path : String) : Task σ DeclaredState := do
  if !(← get).workspace.contains path then return .empty
  let text ← Task.contents "Failed to read state file: " path
  match DeclaredState.parse? text with
  | some s => return s
  | none => Task.giveUp s!"Failed to parse state file: {path}" "not a declared state"

def saveState (path : String) (s : DeclaredState) : Task σ Unit := Task.writeJson path s.toJson

def write (c : Context σ) (action : Action) (tag path : String) : Task σ Unit := do
  let k ← findKind tag
  let s ← loadState path
  let client ← c.connect
  let (result, s) ← c.perform (match action with
    | .create => k.create client s
    | .update => k.update client s
    | .delete => k.delete client s)
  saveState path s
  if !c.quiet then Task.say (Terminal.outcome c.color (s.id.getD tag) result)

def read (c : Context σ) (tag path : String) : Task σ Unit := do
  let k ← findKind tag
  let before ← loadState path
  let client ← c.connect
  let (presence, after) ← c.perform (k.read client before)
  saveState path after
  match presence with
  | .absent =>
    Task.say (Terminal.warning c.color
      s!"{tag} no longer exists remotely; identity cleared in {path}")
  | .present =>
    if !c.quiet then
      Task.say (Terminal.header c.color (tag ++ " " ++ after.id.getD ""))
      Task.say (Terminal.drift c.color before after)

def adopt (c : Context σ) (tag id path : String) : Task σ Unit := do
  let k ← findKind tag
  let s ← loadState path
  let client ← c.connect
  let (presence, s) ← c.perform (k.adopt client id s)
  match presence with
  | .absent => Task.giveUp s!"{id} does not exist remotely" none
  | .present =>
    saveState path s
    Task.say (Terminal.success c.color s!"Imported {id} into {path}")

def loadManifest (path : String) : Task σ Manifest := do
  let text ← Task.contents "Failed to read manifest: " path
  match Manifest.parse? text with
  | some m => return m
  | none => Task.giveUp s!"Failed to parse manifest: {path}" "not a manifest"

/-- Run a batch and save its manifest, whether or not every entry succeeded. -/
def batch (c : Context σ) (op : Operation) (path : String) (jobs : Nat) : Task σ Unit := do
  let manifest ← loadManifest path
  if manifest.resources.isEmpty then
    Task.say (Terminal.info c.color "Manifest declares no resources")
  else
    let client ← c.connect
    let count := manifest.resources.length
    if !c.quiet then
      Task.say (Terminal.info c.color s!"{op.name} {count} resources ({jobs} jobs)")
    let h ← get
    let ((report, entries), w) := Batch.run c.server client op manifest.resources h.server
    set { h with server := w }
    let isApplied := report.summary.isSuccess && op = .apply
    Task.writeJson path (Manifest.toJson {
      resources := entries
      lastApplied := if isApplied then some c.now else manifest.lastApplied })
    if !c.quiet then
      Task.say (Terminal.outcomes c.color report ++ "\n")
      let line := Terminal.summaryLine report.summary
      if report.summary.isSuccess then Task.say (Terminal.success c.color line)
      else Task.complain (Terminal.failure c.color line)
    if !report.summary.isSuccess then
      Task.giveUp s!"{report.summary.failed} of {report.summary.total} resources failed" none

def showKinds (c : Context σ) : Task σ Unit := do
  Task.say (Terminal.header c.color "Resource kinds")
  Task.say (.join (Kind.all.map fun k =>
    Terminal.pair c.color k.tag k.deletePolicy.description))

def run (c : Context σ) : Command → Task σ Unit
  | .write action kind state => write c action kind state
  | .read kind state => read c kind state
  | .adopt kind id state => adopt c kind id state
  | .batch op manifest jobs => batch c op manifest jobs
  | .kinds => showKinds c
  | .completions shell => Task.say (completionScript shell)

def Command.paths : Command → List String
  | .write _ _ state | .read _ state | .adopt _ _ state => [state]
  | .batch _ manifest _ => [manifest]
  | .kinds | .completions _ => []

def pathsOf (arguments : List String) (env : Environment) : List String :=
  let home := present? (env "HOME")
  match parse (env "NODECFG_CONFIG") arguments with
  | .error _ => []
  | .ok invocation =>
    (invocation.config.map (expandHome home)).toList ++ (home.map defaultConfig).toList ++
      invocation.command.paths

structure Finish (σ : Type) where
  code : UInt8
  host : Host σ

def execute (arguments : List String) (env : Environment) (server : Server σ) (now : Timestamp)
    (workspace : Workspace) (w : σ) : Finish σ :=
  match parse (env "NODECFG_CONFIG") arguments with
  | .error .help => ⟨0, ⟨workspace, w, usageText, ""⟩⟩
  | .error (.version verb) => ⟨0, ⟨workspace, w, versionText verb, ""⟩⟩
  | .error refusal => ⟨2, ⟨workspace, w, "", s!"error: {refusal.message}\n\n{usageText}"⟩⟩
  | .ok invocation =>
    let context : Context σ := ⟨invocation.quiet, invocation.config, env, server, now⟩
    match (run context invocation.command).run ⟨workspace, w, "", ""⟩ with
    | (.ok (), host) => ⟨0, host⟩
    | (.error complaint, host) =>
      ⟨1, { host with complaints := host.complaints ++ complaint.text }⟩

end Reconciler.CommandLine
