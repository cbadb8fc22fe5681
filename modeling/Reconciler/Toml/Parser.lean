import Reconciler.Toml.Scalar

/-! Reading TOML documents: lines of headers and key-value pairs, in the syntax of TOML 1.1. -/
namespace Reconciler.Toml

def isBlank (c : Char) : Bool := c == ' ' || c == '\t'

def skipBlanks (s : List Char) : List Char := s.dropWhile isBlank

def isTextChar (c : Char) : Bool := c == '\t' || (0x20 ≤ c.toNat && c.toNat ≠ 0x7F)

def skipTriviaFrom : Bool → List Char → List Char
  | _, [] => []
  | _, '\n' :: r => skipTriviaFrom false r
  | _, '\r' :: '\n' :: r => skipTriviaFrom false r
  | true, c :: r => if isTextChar c then skipTriviaFrom true r else c :: r
  | false, c :: r =>
    if isBlank c then skipTriviaFrom false r
    else if c = '#' then skipTriviaFrom true r
    else c :: r

def skipTrivia (s : List Char) : List Char := skipTriviaFrom false s

def endLine? (s : List Char) : Option (List Char) :=
  let s := match skipBlanks s with
    | '#' :: r => r.dropWhile isTextChar
    | s => s
  match s with
  | [] => some []
  | '\n' :: r => some r
  | '\r' :: '\n' :: r => some r
  | _ => none

def codePoint? (digits : List Char) : Option Char := do
  let n ← hexNumber? digits
  if n.isValidChar then some (Char.ofNat n) else none

def simpleEscape? : Char → Option Char
  | '"' => some '"'
  | '\\' => some '\\'
  | 'b' => some '\x08'
  | 'e' => some '\x1b'
  | 'f' => some '\x0c'
  | 'n' => some '\n'
  | 'r' => some '\r'
  | 't' => some '\t'
  | _ => none

def readBasic? : List Char → Option (List Char × List Char)
  | [] => none
  | '"' :: r => some ([], r)
  | '\\' :: 'x' :: a :: b :: r => do
    let c ← codePoint? [a, b]
    let (cs, r) ← readBasic? r
    return (c :: cs, r)
  | '\\' :: 'u' :: a :: b :: c :: d :: r => do
    let c ← codePoint? [a, b, c, d]
    let (cs, r) ← readBasic? r
    return (c :: cs, r)
  | '\\' :: 'U' :: a :: b :: c :: d :: e :: f :: g :: h :: r => do
    let c ← codePoint? [a, b, c, d, e, f, g, h]
    let (cs, r) ← readBasic? r
    return (c :: cs, r)
  | '\\' :: e :: r => do
    let c ← simpleEscape? e
    let (cs, r) ← readBasic? r
    return (c :: cs, r)
  | c :: r =>
    if isTextChar c then do
      let (cs, r) ← readBasic? r
      return (c :: cs, r)
    else none

def startsLine (s : List Char) : Bool :=
  match skipBlanks s with
  | '\n' :: _ => true
  | '\r' :: '\n' :: _ => true
  | _ => false

/-- A string of several lines with escapes, from behind its opening. A backslash at the end of a
line takes away all blanks and line breaks that follow; the flag says whether that goes on. Up to
two quotes may stand in front of the closing three. -/
def readMultilineBasic? : Bool → List Char → Option (List Char × List Char)
  | _, [] => none
  | true, '\n' :: r => readMultilineBasic? true r
  | true, '\r' :: '\n' :: r => readMultilineBasic? true r
  | true, ' ' :: r => readMultilineBasic? true r
  | true, '\t' :: r => readMultilineBasic? true r
  | _, '"' :: '"' :: '"' :: '"' :: '"' :: r => some (['"', '"'], r)
  | _, '"' :: '"' :: '"' :: '"' :: r => some (['"'], r)
  | _, '"' :: '"' :: '"' :: r => some ([], r)
  | _, '\\' :: 'x' :: a :: b :: r => do
    let c ← codePoint? [a, b]
    let (cs, r) ← readMultilineBasic? false r
    return (c :: cs, r)
  | _, '\\' :: 'u' :: a :: b :: c :: d :: r => do
    let c ← codePoint? [a, b, c, d]
    let (cs, r) ← readMultilineBasic? false r
    return (c :: cs, r)
  | _, '\\' :: 'U' :: a :: b :: c :: d :: e :: f :: g :: h :: r => do
    let c ← codePoint? [a, b, c, d, e, f, g, h]
    let (cs, r) ← readMultilineBasic? false r
    return (c :: cs, r)
  | _, '\\' :: e :: r =>
    if startsLine (e :: r) then readMultilineBasic? true r
    else do
      let c ← simpleEscape? e
      let (cs, r) ← readMultilineBasic? false r
      return (c :: cs, r)
  | _, '\r' :: '\n' :: r => do
    let (cs, r) ← readMultilineBasic? false r
    return ('\r' :: '\n' :: cs, r)
  | _, c :: r =>
    if isTextChar c || c == '\n' then do
      let (cs, r) ← readMultilineBasic? false r
      return (c :: cs, r)
    else none

def readLiteral? : List Char → Option (List Char × List Char)
  | [] => none
  | '\'' :: r => some ([], r)
  | c :: r =>
    if isTextChar c then do
      let (cs, r) ← readLiteral? r
      return (c :: cs, r)
    else none

def readMultilineLiteral? : List Char → Option (List Char × List Char)
  | [] => none
  | '\'' :: '\'' :: '\'' :: '\'' :: '\'' :: r => some (['\'', '\''], r)
  | '\'' :: '\'' :: '\'' :: '\'' :: r => some (['\''], r)
  | '\'' :: '\'' :: '\'' :: r => some ([], r)
  | '\r' :: '\n' :: r => do
    let (cs, r) ← readMultilineLiteral? r
    return ('\r' :: '\n' :: cs, r)
  | c :: r =>
    if isTextChar c || c == '\n' then do
      let (cs, r) ← readMultilineLiteral? r
      return (c :: cs, r)
    else none

def skipFirstBreak : List Char → List Char
  | '\n' :: r => r
  | '\r' :: '\n' :: r => r
  | r => r

def readString? : List Char → Option (String × List Char)
  | '"' :: '"' :: '"' :: r => (readMultilineBasic? false (skipFirstBreak r)).map finish
  | '\'' :: '\'' :: '\'' :: r => (readMultilineLiteral? (skipFirstBreak r)).map finish
  | '"' :: r => (readBasic? r).map finish
  | '\'' :: r => (readLiteral? r).map finish
  | _ => none
where
  finish (t : List Char × List Char) : String × List Char := (.ofList t.1, t.2)

def isBareKeyChar (c : Char) : Bool := c.isAlphanum || c == '_' || c == '-'

def readKey? : List Char → Option (String × List Char)
  | '"' :: r => (readBasic? r).map fun t => (.ofList t.1, t.2)
  | '\'' :: r => (readLiteral? r).map fun t => (.ofList t.1, t.2)
  | s =>
    let key := s.takeWhile isBareKeyChar
    if key.isEmpty then none else some (.ofList key, s.dropWhile isBareKeyChar)

/-- Keys joined by dots, with blanks around each. A fuel of the input's length is enough. -/
def readKeys? : Nat → List Char → Option (List String × List Char)
  | 0, _ => none
  | fuel + 1, s => do
    let (key, r) ← readKey? (skipBlanks s)
    match skipBlanks r with
    | '.' :: r => do
      let (keys, r) ← readKeys? fuel r
      return (key :: keys, r)
    | r => return ([key], r)

/-- Arrays and tables in braces nest at most this deep, and dots join at most this many keys. -/
def nestingLimit : Nat := 80

def readPath? (fuel : Nat) (s : List Char) : Option (List String × List Char) :=
  (readKeys? fuel s).filter fun t => t.1.length ≤ nestingLimit

def inlineTable? (members : List (List String × Toml)) : Option Toml :=
  (members.foldlM (fun entries m => insertDotted? m.2 m.1 entries) []).map (.table .inline)

mutual
/-- A value in front, with at most `room` arrays and tables inside one another. A fuel above the
length of the input is enough. -/
def readValue? : Nat → Nat → List Char → Option (Toml × List Char)
  | 0, _, _ => none
  | fuel + 1, room, s =>
    match s, room with
    | '[' :: _, 0 => none
    | '\x7b' :: _, 0 => none
    | '[' :: r, room + 1 => do
      let (items, r) ← readItems? fuel room (skipTrivia r)
      return (.array items, r)
    | '\x7b' :: r, room + 1 => do
      let (members, r) ← readMembers? fuel room (skipTrivia r)
      return (← inlineTable? members, r)
    | '"' :: _, _ => (readString? s).map fun t => (.string t.1, t.2)
    | '\'' :: _, _ => (readString? s).map fun t => (.string t.1, t.2)
    | _, _ => readScalar? s

def readItems? : Nat → Nat → List Char → Option (List Toml × List Char)
  | 0, _, _ => none
  | fuel + 1, room, s =>
    match s with
    | ']' :: r => some ([], r)
    | s => do
      let (item, r) ← readValue? fuel room s
      match skipTrivia r with
      | ']' :: r => some ([item], r)
      | ',' :: r => do
        let (items, r) ← readItems? fuel room (skipTrivia r)
        return (item :: items, r)
      | _ => none

/-- Members to the closing brace; the last one may be followed by a comma. Line breaks and comments
may stand on either side of an equals sign. -/
def readMembers? : Nat → Nat → List Char → Option (List (List String × Toml) × List Char)
  | 0, _, _ => none
  | fuel + 1, room, s =>
    match s with
    | '\x7d' :: r => some ([], r)
    | s => do
      let (path, r) ← readPath? fuel s
      let r ← expect? '=' (skipTrivia r)
      let (value, r) ← readValue? fuel room (skipTrivia r)
      match skipTrivia r with
      | '\x7d' :: r => some ([(path, value)], r)
      | ',' :: r => do
        let (members, r) ← readMembers? fuel room (skipTrivia r)
        return ((path, value) :: members, r)
      | _ => none
end

def readStatement? (s : List Char) : Option (Statement × List Char) := do
  let fuel := s.length + 1
  match s with
  | '[' :: '[' :: r => do
    let (path, r) ← readPath? fuel r
    let r ← expect? ']' r >>= expect? ']' >>= endLine?
    return (.tables path, r)
  | '[' :: r => do
    let (path, r) ← readPath? fuel r
    let r ← expect? ']' r >>= endLine?
    return (.table path, r)
  | s => do
    let (path, r) ← readPath? fuel s
    let r ← expect? '=' r
    let (value, r) ← readValue? fuel nestingLimit (skipBlanks r)
    return (.entry path value, ← endLine? r)

def readStatements? : Nat → List Char → Option (List Statement)
  | 0, _ => none
  | fuel + 1, s =>
    match skipTrivia s with
    | [] => some []
    | s => do
      let (statement, r) ← readStatement? s
      return statement :: (← readStatements? fuel r)

def parse? (s : String) : Option Entries :=
  let s := match s.toList with
    | '\ufeff' :: r => r
    | s => s
  readStatements? (s.length + 1) s >>= ofStatements?

end Reconciler.Toml
