/-! A tree of files and directories, reached by paths as on a POSIX system. -/
namespace Reconciler

inductive FileTree
  | file (text : String)
  | directory (entries : List (String × FileTree))

inductive FileError
  | notFound
  | alreadyThere
  | notADirectory
  | isADirectory
  | nameTooLong
deriving DecidableEq

def FileError.message : FileError → String
  | .notFound => "No such file or directory (os error 2)"
  | .alreadyThere => "File exists (os error 17)"
  | .notADirectory => "Not a directory (os error 20)"
  | .isADirectory => "Is a directory (os error 21)"
  | .nameTooLong => "File name too long (os error 36)"

namespace FileTree

def empty : FileTree := .directory []

def at? : List String → FileTree → Option FileTree
  | [], t => some t
  | _ :: _, .file _ => none
  | name :: names, .directory entries => entries.lookup name >>= at? names

def putEntry (name : String) (t : FileTree) : List (String × FileTree) → List (String × FileTree)
  | [] => [(name, t)]
  | e :: es => if e.1 = name then (name, t) :: es else e :: putEntry name t es

def put (new : FileTree) : List String → FileTree → FileTree
  | [], _ => new
  | name :: names, .directory entries =>
    .directory (putEntry name (put new names ((entries.lookup name).getD empty)) entries)
  | name :: names, .file _ => .directory [(name, put new names empty)]

mutual
def files : FileTree → List (List String × String)
  | .file text => [([], text)]
  | .directory entries => filesOf entries

def filesOf : List (String × FileTree) → List (List String × String)
  | [] => []
  | (name, t) :: es => (t.files.map fun f => (name :: f.1, f.2)) ++ filesOf es
end

end FileTree

/-- A file tree, and the names of the directory that relative paths start from. -/
structure Workspace where
  root : FileTree
  current : List String

namespace Workspace

def pieces : List Char → List Char → List String
  | name, [] => [.ofList name.reverse]
  | name, '/' :: r => .ofList name.reverse :: pieces [] r
  | name, c :: r => pieces (c :: name) r

def nameLimit : Nat := 255

def pathLimit : Nat := 4095

def step (w : Workspace) (place : List String) (name : String) : Except FileError (List String) :=
  match w.root.at? place with
  | none => .error .notFound
  | some (.file _) => .error .notADirectory
  | some (.directory _) =>
    if name = "" ∨ name = "." then .ok place
    else if name = ".." then .ok place.dropLast
    else if name.utf8ByteSize > nameLimit then .error .nameTooLong
    else .ok (place ++ [name])

def follow (w : Workspace) (path : String) (steps : List String) :
    Except FileError (List String) :=
  if path = "" then .error .notFound
  else if path.utf8ByteSize > pathLimit then .error .nameTooLong
  else steps.foldlM w.step (if path.startsWith "/" then [] else w.current)

/-- Where a path leads: the names of a place in the tree, whether or not anything is there. What
comes before the last piece must be there; a path that ends in a slash must lead to a directory. -/
def resolve (w : Workspace) (path : String) : Except FileError (List String) :=
  w.follow path (pieces [] path.toList)

def node? (w : Workspace) (path : String) : Except FileError FileTree := do
  let place ← w.resolve path
  match w.root.at? place with
  | some t => .ok t
  | none => .error .notFound

def contains (w : Workspace) (path : String) : Bool := (w.node? path).isOk

def isDirectory (w : Workspace) (path : String) : Bool :=
  match w.node? path with
  | .ok (.directory _) => true
  | _ => false

def read (w : Workspace) (path : String) : Except FileError String := do
  match ← w.node? path with
  | .file text => .ok text
  | .directory _ => .error .isADirectory

/-- The path of the directory that a path stands in; none for the root, and empty for a path of
one name. Slashes and `.` at the end of a path do not count. -/
def parent? (path : String) : Option String :=
  let bare := trimEnd path.toList.reverse
  match bare with
  | [] => if path.startsWith "/" then none else some ""
  | name =>
    let before := name.dropWhile (· ≠ '/')
    let kept := trimEnd before
    some (if kept.isEmpty && !before.isEmpty then "/" else .ofList kept.reverse)
where
  /-- Drop slashes and single dots from the front of a reversed path. -/
  trimEnd : List Char → List Char
    | '/' :: r => trimEnd r
    | '.' :: '/' :: r => trimEnd r
    | r => r

def withoutSlash (path : String) : String :=
  let bare := String.ofList (path.toList.reverse.dropWhile (· = '/')).reverse
  if bare = "" then "/" else bare

def makeDirectory (w : Workspace) (path : String) : Except FileError Workspace := do
  let place ← w.resolve (withoutSlash path)
  match w.root.at? place with
  | some _ => .error .alreadyThere
  | none => .ok { w with root := FileTree.put .empty place w.root }

/-- Make a directory and all that are missing above it. A fuel of the path's length is enough. -/
def makeDirectories : Nat → String → Workspace → Except FileError Workspace
  | 0, _, w => .ok w
  | fuel + 1, path, w =>
    if path = "" then .ok w
    else
      match w.makeDirectory path with
      | .ok w => .ok w
      | .error .notFound =>
        match parent? path with
        | none => .error .notFound
        | some above => do
          let w ← makeDirectories fuel above w
          match w.makeDirectory path with
          | .ok w => .ok w
          | .error e => if w.isDirectory path then .ok w else .error e
      | .error e => if w.isDirectory path then .ok w else .error e

/-- Write a text to a file, in place of what it held. A path that ends in a slash is taken for one
of a directory, whatever its last name leads to. -/
def write (w : Workspace) (path text : String) : Except FileError Workspace := do
  if path.endsWith "/" then
    let _ ← w.follow path ((pieces [] (withoutSlash path).toList).dropLast ++ ["."])
    .error .isADirectory
  else
    let place ← w.resolve path
    match w.root.at? place with
    | some (.directory _) => .error .isADirectory
    | _ => .ok { w with root := FileTree.put (.file text) place w.root }

end Workspace
end Reconciler
