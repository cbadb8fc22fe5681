import Reconciler.CommandLine.Command
import Reconciler.Text.Classes
import Reconciler.Json.Basic

/-! Reading a command line. Options may stand in front of the subcommand and behind it; the two
levels are read on their own, the one behind the subcommand first as far as complaints go. -/
namespace Reconciler.CommandLine

inductive Refusal
  | help
  | version (verb : Option Verb)
  | unknownArgument
  | unknownSubcommand
  | invalidValue
  | notANumberOfJobs
  | surplusValue
  | repeatedOption
  | missingArgument
  | missingSubcommand
  | nothingGiven
deriving DecidableEq

inductive Purpose
  | config
  | jobs
  | argument (type : ArgumentType)

inductive OptionName
  | verbose
  | quiet
  | help
  | version
  | valued (purpose : Purpose)

/-- What one level of a command line has said so far. The last value, or the wait for one, is
pending: it is judged when the next option or argument comes, or at the end. -/
structure Level where
  verb : Option Verb
  verbose : Option Nat
  quiet : Bool
  config : Option String
  jobs : Option Nat
  arguments : List String
  pending : Option (Purpose × Option String)

namespace Level

def start (verb : Option Verb) : Level := ⟨verb, none, false, none, none, [], none⟩

def takesJobs (l : Level) : Bool := l.verb.any Verb.takesJobs

def longOption? (l : Level) : String → Option OptionName
  | "verbose" => some .verbose
  | "quiet" => some .quiet
  | "help" => some .help
  | "version" => some .version
  | "config" => some (.valued .config)
  | "jobs" => if l.takesJobs then some (.valued .jobs) else none
  | _ => none

def shortOption? (l : Level) : Char → Option OptionName
  | 'v' => some .verbose
  | 'q' => some .quiet
  | 'h' => some .help
  | 'V' => some .version
  | 'c' => some (.valued .config)
  | 'j' => if l.takesJobs then some (.valued .jobs) else none
  | _ => none

def jobs? (s : String) : Option Nat :=
  let (negative, digits) := match s.toList with
    | '-' :: r => (true, r)
    | '+' :: r => (false, r)
    | r => (false, r)
  let n := Number.appendDigits 0 digits
  if digits.isEmpty || !digits.all isDecimalDigit || n > 255 || (negative && n ≠ 0) then none
  else some n

def fill (l : Level) : Purpose → Option String → Except Refusal Level
  | _, none => .error .invalidValue
  | .config, some value =>
    if l.config.isSome then .error .repeatedOption
    else if value = "" then .error .invalidValue
    else .ok { l with config := some value }
  | .jobs, some value =>
    if l.jobs.isSome then .error .repeatedOption
    else match jobs? value with
      | none => .error .notANumberOfJobs
      | some n => .ok { l with jobs := some n }
  | .argument type, some value =>
    if type.accepts value then .ok { l with arguments := l.arguments ++ [value] }
    else .error .invalidValue

def resolve (l : Level) : Except Refusal Level :=
  match l.pending with
  | none => .ok l
  | some (purpose, value) => { l with pending := none }.fill purpose value

def isWaiting (l : Level) : Bool :=
  match l.pending with
  | some (_, none) => true
  | _ => false

def switch (l : Level) (name : OptionName) : Except Refusal Level := do
  let l ← l.resolve
  match name with
  | .verbose => .ok { l with verbose := some (min 255 (l.verbose.getD 0 + 1)) }
  | .quiet => if l.quiet then .error .repeatedOption else .ok { l with quiet := true }
  | .help => .error .help
  | .version => .error (.version l.verb)
  | .valued _ => .ok l

def option (l : Level) (purpose : Purpose) (attached : Option String) : Except Refusal Level := do
  let l ← l.resolve
  match attached with
  | some value => l.fill purpose (some value)
  | none => .ok { l with pending := some (purpose, none) }

def long (l : Level) (s : List Char) : Except Refusal Level :=
  let word := String.ofList (s.takeWhile (· ≠ '='))
  let attached := match s.dropWhile (· ≠ '=') with
    | [] => none
    | _ :: value => some (String.ofList value)
  match l.longOption? word, attached with
  | none, _ => .error .unknownArgument
  | some (.valued purpose), attached => l.option purpose attached
  | some name, none => l.switch name
  | some _, some _ => .error .surplusValue

/-- The letters behind a single dash. What follows a letter whose option takes a value is that
value, an equals sign in front of it apart. -/
def short (l : Level) : List Char → Except Refusal Level
  | [] => .ok l
  | c :: r =>
    match l.shortOption? c with
    | none => .error .unknownArgument
    | some (.valued purpose) =>
      match r with
      | [] => l.option purpose none
      | '=' :: value => l.option purpose (some (.ofList value))
      | value => l.option purpose (some (.ofList value))
    | some name => do (← l.switch name).short r

def nextArgument? (l : Level) : Option ArgumentType :=
  let taken := match l.pending with
    | some (.argument _, _) => l.arguments.length + 1
    | _ => l.arguments.length
  l.verb.bind fun verb => verb.arguments[taken]?

end Level

def isSubcommand (s : String) : Bool := s == "help" || (Verb.ofName? s).isSome

def help : List String → Refusal
  | [] => .help
  | [name] => if isSubcommand name then .help else .unknownSubcommand
  | _ => .unknownSubcommand

def Level.positional (l : Level) (trailing : Bool) (s : String) : Except Refusal Level :=
  match l.nextArgument?, l.verb with
  | some type, _ => do
    let l ← l.resolve
    .ok { l with pending := some (.argument type, some s) }
  | none, some _ => .error .unknownArgument
  | none, none =>
    .error (if trailing && isSubcommand s then .unknownArgument else .unknownSubcommand)

/-- Read one level, up to its end or to a subcommand. Behind `--` everything is positional. -/
def Level.scan : Bool → Level → List String → Except Refusal (Level × Option (Verb × List String))
  | _, l, [] => .ok (l, none)
  | true, l, s :: rest => do scan true (← l.positional true s) rest
  | false, l, s :: rest =>
    if l.verb.isNone && !l.isWaiting && isSubcommand s then
      match Verb.ofName? s with
      | some verb => .ok (l, some (verb, rest))
      | none => .error (help rest)
    else if s = "--" then scan true l rest
    else
      match s.toList with
      | '-' :: '-' :: name => do scan false (← l.long name) rest
      | '-' :: c :: letters => do scan false (← l.short (c :: letters)) rest
      | _ =>
        match l.pending with
        | some (purpose, none) => scan false { l with pending := some (purpose, some s) } rest
        | _ => do scan false (← l.positional false s) rest

/-- End a level. Where it names no configuration file the environment may, but not an empty one. -/
def Level.finish (configVariable : Option String) (l : Level) : Except Refusal Level := do
  let l ← l.resolve
  if l.config.isNone && configVariable = some "" then .error .invalidValue else .ok l

/-- Combine both levels. Where both speak, the one behind the subcommand counts. -/
def Level.invocation (outer inner : Level) (configVariable : Option String) (command : Command) :
    Invocation where
  verbose := (inner.verbose <|> outer.verbose).getD 0
  quiet := inner.quiet || outer.quiet
  config := inner.config <|> outer.config <|> configVariable
  command := command

def Level.command (l : Level) : Except Refusal Command :=
  match l.verb.bind fun verb => Command.ofArguments? (l.jobs.getD 4) verb l.arguments with
  | some command => .ok command
  | none => .error .missingArgument

/-- Read a command line, where `configVariable` is the environment's configuration file. -/
def parse (configVariable : Option String) (arguments : List String) :
    Except Refusal Invocation := do
  let (outer, subcommand) ← (Level.start none).scan false arguments
  match subcommand with
  | some (verb, rest) =>
    let (inner, _) ← (Level.start (some verb)).scan false rest
    let inner ← inner.finish configVariable
    let command ← inner.command
    let outer ← outer.finish configVariable
    return outer.invocation inner configVariable command
  | none =>
    let outer ← outer.finish configVariable
    let silent := outer.verbose.isNone && !outer.quiet && outer.config.isNone &&
      configVariable.isNone
    .error (if silent then .nothingGiven else .missingSubcommand)

end Reconciler.CommandLine
