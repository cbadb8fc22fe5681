import Reconciler.CommandLine.Run

/-! The program: what a run may look at is loaded first, and what it changed is stored behind it.
No transport is built in, so every exchange ends without a connection. -/
namespace Reconciler.CommandLine

def absolute (current : List String) (path : String) : List String :=
  let start := if path.startsWith "/" then [] else current
  (Workspace.pieces [] path.toList).foldl
    (fun place name =>
      if name = "" ∨ name = "." then place
      else if name = ".." then place.dropLast
      else place ++ [name]) start

def pathText (names : List String) : String := "/" ++ "/".intercalate names

def load (tree : FileTree) (names : List String) : IO FileTree := do
  let root ← IO.currentDir
  let mut tree := tree
  for length in List.range (names.length + 1) do
    let place := names.take length
    let path := root / pathText place
    if ← path.isDir then
      if (tree.at? place).isNone then tree := FileTree.put .empty place tree
    else if ← path.pathExists then
      tree := FileTree.put (.file (← IO.FS.readFile path)) place tree
  return tree

/-- Store the files of a tree that differ from those of an earlier one. -/
def store (before after : FileTree) : IO Unit := do
  let root ← IO.currentDir
  let old := before.files
  for (names, text) in after.files do
    if !old.contains (names, text) then
      IO.FS.createDirAll (root / pathText names.dropLast)
      IO.FS.writeFile (root / pathText names) text

def clock : IO Timestamp := do
  let (_, path) ← IO.FS.createTempFile
  let time := (← path.metadata).modified
  IO.FS.removeFile path
  let second : Fin 86400 := ⟨(time.sec % 86400).toNat, by omega⟩
  match Timestamp.ofDay? (time.sec / 86400) second time.nsec.toNat with
  | some t => return t
  | none => throw (.userError "no time")

def variableNames : List String :=
  ["HOME", "CLICOLOR_FORCE", "NODECFG_CONFIG", "NODECFG_HOST", "NODECFG_API_KEY",
    "NODECFG_API_SECRET", "NODECFG_TOKEN", "NODECFG_ORGANIZATION_ID"]

def program (arguments : List String) : IO UInt32 := do
  let known ← variableNames.filterMapM fun name => do
    return (← IO.getEnv name).map fun value => (name, value)
  let env : Environment := fun name => known.lookup name
  let current := absolute [] (toString (← IO.currentDir))
  let mut tree ← load .empty current
  for path in pathsOf arguments env do
    tree ← load tree (absolute current path)
  let server : Server Unit := .unreachable Unit "no transport"
  let finish := execute arguments env server (← clock) ⟨tree, current⟩ ()
  store tree finish.host.workspace.root
  IO.print finish.host.output
  IO.eprint finish.host.complaints
  return finish.code.toUInt32

end Reconciler.CommandLine

def main (arguments : List String) : IO UInt32 := Reconciler.CommandLine.program arguments
