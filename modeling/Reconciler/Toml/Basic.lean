/-! TOML documents: the tree of tables that statements build up, and what they may not redefine. -/
namespace Reconciler

/-- How a table came to be, which decides what may still be added to it. -/
inductive TableOrigin
  /-- By a header of its own, or as the root. -/
  | header
  /-- On the way to a table that has a header. -/
  | implied
  /-- By a dotted key. -/
  | dotted
  /-- In braces; such a table is complete. -/
  | inline
deriving DecidableEq

/-- A TOML value. Floats and points in time are checked and not kept. -/
inductive Toml
  | string (s : String)
  | integer (i : Int)
  | float
  | boolean (b : Bool)
  | moment
  | array (items : List Toml)
  | table (origin : TableOrigin) (entries : List (String × Toml))
  /-- The tables of all headers in double brackets with one name. -/
  | tables (items : List Toml)

namespace Toml

abbrev Entries := List (String × Toml)

def Entries.put (key : String) (value : Toml) : Entries → Entries
  | [] => [(key, value)]
  | e :: es => if e.1 = key then (key, value) :: es else e :: Entries.put key value es

def editLast? (edit : Toml → Option Toml) (items : List Toml) : Option (List Toml) := do
  return items.dropLast ++ [← edit (← items.getLast?)]

/-- Edit the table that a header's path leads to. Tables on the way are made as needed; of a list
of tables the last one is meant. -/
def editHeader? (edit : TableOrigin → Entries → Option (TableOrigin × Entries)) :
    List String → TableOrigin → Entries → Option (TableOrigin × Entries)
  | [], origin, entries => edit origin entries
  | key :: path, origin, entries => do
    let into : Toml → Option Toml
      | .table .inline _ => none
      | .table origin entries =>
        (editHeader? edit path origin entries).map fun t => .table t.1 t.2
      | _ => none
    let child ← match entries.lookup key with
      | none => into (.table .implied [])
      | some (.tables items) => (editLast? into items).map .tables
      | some child => into child
    return (origin, entries.put key child)

/-- Put a value under a dotted key. The tables that it leads through are new, come from dotted keys,
or were only implied by headers so far; from now on they count as coming from dotted keys. The last
one of a list of tables may be led through as well, but it has a header of its own and takes no
value this way. -/
def insertDotted? (value : Toml) : List String → Entries → Option Entries
  | [], _ => none
  | [key], entries =>
    match entries.lookup key with
    | none => some (entries ++ [(key, value)])
    | some _ => none
  | key :: path, entries => do
    let child ← match entries.lookup key with
      | none => (insertDotted? value path []).map (.table .dotted)
      | some (.table .dotted inner) | some (.table .implied inner) =>
        (insertDotted? value path inner).map (.table .dotted)
      | some (.tables items) =>
        let into : Toml → Option Toml
          | .table origin inner => (insertDotted? value path inner).map (.table origin)
          | _ => none
        if path.length = 1 then none else (editLast? into items).map .tables
      | some _ => none
    return entries.put key child

def openTable? (key : String) (entries : Entries) : Option Entries :=
  match entries.lookup key with
  | none => some (entries ++ [(key, .table .header [])])
  | some (.table .implied inner) => some (entries.put key (.table .header inner))
  | some _ => none

def addTable? (key : String) (entries : Entries) : Option Entries :=
  match entries.lookup key with
  | none => some (entries ++ [(key, .tables [.table .header []])])
  | some (.tables items) => some (entries.put key (.tables (items ++ [.table .header []])))
  | some _ => none

inductive Statement
  | table (path : List String)
  | tables (path : List String)
  | entry (path : List String) (value : Toml)

structure Draft where
  root : Entries
  header : List String

namespace Draft

def empty : Draft := ⟨[], []⟩

def editParent? (edit : String → Entries → Option Entries) (path : List String) (d : Draft) :
    Option Draft := do
  let key ← path.getLast?
  let (_, root) ← editHeader? (fun o es => (edit key es).map fun es => (o, es)) path.dropLast
    .header d.root
  return ⟨root, path⟩

def add? (d : Draft) : Statement → Option Draft
  | .table path => d.editParent? openTable? path
  | .tables path => d.editParent? addTable? path
  | .entry path value => do
    let (_, root) ← editHeader? (fun o es => (insertDotted? value path es).map fun es => (o, es))
      d.header .header d.root
    return { d with root }

end Draft

def ofStatements? (statements : List Statement) : Option Entries :=
  (statements.foldlM Draft.add? .empty).map (·.root)

end Toml
end Reconciler
