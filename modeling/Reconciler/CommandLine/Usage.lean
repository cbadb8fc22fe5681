import Reconciler.CommandLine.Arguments

/-! The program's own account of its command line. -/
namespace Reconciler.CommandLine

def programName : String := "nodecfg"

def programVersion : String := "0.1.0"

def versionText : Option Verb → String
  | none => s!"{programName} {programVersion}\n"
  | some verb => s!"{programName}-{verb.name} {programVersion}\n"

def ArgumentType.placeholder : ArgumentType → String
  | .text => "<NAME>"
  | .path => "<FILE>"
  | .shell => "<SHELL>"

def Verb.usage (verb : Verb) : String :=
  let jobs := if verb.takesJobs then ["[--jobs <JOBS>]"] else []
  " ".intercalate (programName :: verb.name :: (verb.arguments.map (·.placeholder) ++ jobs))

def usageText : String :=
  "Usage:\n" ++ .join (Verb.all.map fun verb => s!"  {verb.usage}\n") ++
    "Options: [-v...] [-q] [-c <CONFIG>] [-h] [-V]\n"

def Refusal.message : Refusal → String
  | .help | .version _ | .nothingGiven => "no command was given"
  | .unknownArgument => "an argument was not expected"
  | .unknownSubcommand => "a subcommand is not known"
  | .invalidValue => "a value is missing or not allowed"
  | .notANumberOfJobs => "the number of jobs must lie between 0 and 255"
  | .surplusValue => "an option takes no value"
  | .repeatedOption => "an option was given twice"
  | .missingArgument => "required arguments are missing"
  | .missingSubcommand => "a subcommand is required"

/-- A script that completes the names of the subcommands. -/
def completionScript (shell : Shell) : String :=
  let words := " ".intercalate (Verb.all.map Verb.name)
  match shell with
  | .bash => s!"complete -W '{words}' {programName}\n"
  | .elvish =>
    s!"set edit:completion:arg-completer[{programName}] = \x7b |@args| put {words} \x7d\n"
  | .fish => s!"complete -c {programName} -f -a '{words}'\n"
  | .powershell =>
    s!"Register-ArgumentCompleter -Native -CommandName {programName} -ScriptBlock \x7b " ++
      s!"'{words}' -split ' ' \x7d\n"
  | .zsh => s!"compctl -k '({words})' {programName}\n"

end Reconciler.CommandLine
