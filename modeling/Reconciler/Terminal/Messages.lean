import Reconciler.Batch.Run
import Reconciler.Diff.Lines
import Reconciler.Terminal.Style

/-! The lines that commands show. -/
namespace Reconciler.Terminal

/-- Output is no terminal, so it has colour only when `CLICOLOR_FORCE` asks for it; that beats
`NO_COLOR`. -/
def wantsColor (env : String → Option String) : Bool :=
  match env "CLICOLOR_FORCE" with
  | none => false
  | some setting => setting ≠ "0"

def marked (mark message : String) : String := s!"{mark} {message}\n"

def info (color : Bool) (message : String) : String :=
  marked (Style.blue.paint color "ℹ") message

def success (color : Bool) (message : String) : String :=
  marked (Style.green.paint color "✓") message

def warning (color : Bool) (message : String) : String :=
  marked (Style.yellow.paint color "⚠") message

def failure (color : Bool) (message : String) : String :=
  marked (Style.red.paint color "✗") message

def muted (color : Bool) (message : String) : String := s!"  {Style.dim.paint color message}\n"

/-- A title, underlined by a rule with a dash for each of its bytes. -/
def header (color : Bool) (title : String) : String :=
  let rule := String.ofList (List.replicate title.utf8ByteSize '─')
  s!"\n{Style.bold.paint color title}\n{Style.dim.paint color rule}\n"

def pair (color : Bool) (key value : String) : String :=
  s!"  {Style.dim.paint color key}: {value}\n"

def symbol (color : Bool) : ApplyResult → String
  | .noChange => Style.dim.paint color "○"
  | .created => Style.green.paint color "+"
  | .modified => Style.yellow.paint color "~"
  | .removed => Style.red.paint color "-"
  | .failed _ => Style.red.paint color "✗"

def describe : ApplyResult → String
  | .noChange => "unchanged"
  | .created => "created"
  | .modified => "updated"
  | .removed => "removed"
  | .failed error => s!"failed: {error}"

def outcome (color : Bool) (label : String) (result : ApplyResult) : String :=
  s!"  {symbol color result} {label} {Style.dim.paint color (describe result)}\n"

def summaryLine (s : Summary) : String :=
  if s.totalChanges = 0 ∧ s.failed = 0 then s!"No changes ({s.noChange} unchanged)"
  else
    s!"{s.totalChanges} changes: {s.created} created, {s.modified} updated, " ++
      s!"{s.removed} removed, {s.noChange} unchanged, {s.failed} failed"

def outcomes (color : Bool) (report : Report) : String :=
  let shown := report.outcomes.filter fun o => o.result.isChange || !o.result.isSuccess
  .join (shown.map fun o => outcome color o.label o.result)

def drift (color : Bool) (before after : DeclaredState) : String :=
  let edits := Diff.edits (Diff.lines before.pretty) (Diff.lines after.pretty)
  let shown := edits.flatMap fun
    | .keep _ => []
    | .remove line => ["    " ++ Style.red.paint color s!"- {line}\n"]
    | .add lines => lines.map fun line => "    " ++ Style.green.paint color s!"+ {line}\n"
  if shown.isEmpty then "    " ++ Style.dim.paint color "(no drift)" ++ "\n" else .join shown

end Reconciler.Terminal
