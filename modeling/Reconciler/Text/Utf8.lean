/-! UTF-8, and reading bytes that may not be well formed. -/
namespace Reconciler.Utf8

def encodeChar (c : Char) : List UInt8 :=
  let n := c.toNat
  if n < 0x80 then [.ofNat n]
  else if n < 0x800 then [.ofNat (0xC0 + n / 0x40), .ofNat (0x80 + n % 0x40)]
  else if n < 0x10000 then
    [.ofNat (0xE0 + n / 0x1000), .ofNat (0x80 + n / 0x40 % 0x40), .ofNat (0x80 + n % 0x40)]
  else
    [.ofNat (0xF0 + n / 0x40000), .ofNat (0x80 + n / 0x1000 % 0x40),
      .ofNat (0x80 + n / 0x40 % 0x40), .ofNat (0x80 + n % 0x40)]

def encode (s : String) : List UInt8 := s.toList.flatMap encodeChar

/-- A sequence read in part: the bits so far, the range the next byte has to be in, and how many
bytes follow that one. -/
structure Partial where
  bits : Nat
  low : Nat
  high : Nat
  more : Nat

def lead (b : UInt8) : Option (Char ⊕ Partial) :=
  let n := b.toNat
  if n < 0x80 then some (.inl (Char.ofNat n))
  else if n < 0xC2 then none
  else if n < 0xE0 then some (.inr ⟨n - 0xC0, 0x80, 0xBF, 0⟩)
  else if n < 0xF0 then
    some (.inr ⟨n - 0xE0, if n = 0xE0 then 0xA0 else 0x80, if n = 0xED then 0x9F else 0xBF, 1⟩)
  else if n < 0xF5 then
    some (.inr ⟨n - 0xF0, if n = 0xF0 then 0x90 else 0x80, if n = 0xF4 then 0x8F else 0xBF, 2⟩)
  else none

/-- The characters that bytes spell. Each longest part that could begin a character but does not
make one counts once, as none. -/
def decodeFrom : Option Partial → List UInt8 → List (Option Char)
  | none, [] => []
  | some _, [] => [none]
  | none, b :: rest =>
    match lead b with
    | some (.inl c) => some c :: decodeFrom none rest
    | some (.inr p) => decodeFrom (some p) rest
    | none => none :: decodeFrom none rest
  | some p, b :: rest =>
    let n := b.toNat
    if p.low ≤ n ∧ n ≤ p.high then
      let bits := p.bits * 0x40 + (n - 0x80)
      match p.more with
      | 0 => some (Char.ofNat bits) :: decodeFrom none rest
      | more + 1 => decodeFrom (some ⟨bits, 0x80, 0xBF, more⟩) rest
    else
      none :: match lead b with
        | some (.inl c) => some c :: decodeFrom none rest
        | some (.inr p) => decodeFrom (some p) rest
        | none => none :: decodeFrom none rest

def replacement : Char := '\ufffd'

def marked (cs : List (Option Char)) : List Char := cs.map fun c => c.getD replacement

def decodeLossy (bytes : List UInt8) : String := .ofList (marked (decodeFrom none bytes))

def decode? (bytes : List UInt8) : Option String :=
  let s := decodeLossy bytes
  if encode s = bytes then some s else none

end Reconciler.Utf8
