import Reconciler.Json.Parser
import Reconciler.Json.Printer

/-! A string literal comes back from its spelling, escapes included. -/
namespace Reconciler.Json

section Units
variable {r : List Char}

private theorem readUnits?_simple {e c : Char} (he : e ≠ 'u') (hc : simpleEscape? e = some c) :
    readUnits? ('\\' :: e :: r) = (readUnits? r).map fun p => (c.toNat :: p.1, p.2) := by
  rw [readUnits?.eq_4 _ _ (by rintro a b c d t rfl; exact absurd rfl he), hc]
  cases readUnits? r <;> rfl

private theorem readUnits?_hex {a b c d : Char} {n : Nat} (hn : hexNumber? [a, b, c, d] = some n) :
    readUnits? ('\\' :: 'u' :: a :: b :: c :: d :: r) =
      (readUnits? r).map fun p => (n :: p.1, p.2) := by
  rw [readUnits?, hn]
  cases readUnits? r <;> rfl

private theorem readUnits?_plain {c : Char} (hquote : c ≠ '"') (hescape : c ≠ '\\')
    (hc : ¬c.toNat < 0x20) :
    readUnits? (c :: r) = (readUnits? r).map fun p => (c.toNat :: p.1, p.2) := by
  rw [readUnits?]
  · rw [if_neg hc]
    cases readUnits? r <;> rfl
  · exact hquote
  · exact fun _ _ _ _ _ h _ => hescape h
  · exact fun _ _ h _ => hescape h

private theorem hexNumber?_hexDigit :
    ∀ n < 0x20, hexNumber? ['0', '0', hexDigit (n / 16), hexDigit n] = some n := by decide

/-- Each character is read as itself, escaped or not. -/
theorem readUnits?_writeChar (c : Char) :
    readUnits? (writeChar c ++ r) = (readUnits? r).map fun p => (c.toNat :: p.1, p.2) := by
  unfold writeChar
  split
  · exact readUnits?_simple (by decide) rfl
  · exact readUnits?_simple (by decide) rfl
  · exact readUnits?_simple (by decide) rfl
  · exact readUnits?_simple (by decide) rfl
  · exact readUnits?_simple (by decide) rfl
  · exact readUnits?_simple (by decide) rfl
  · exact readUnits?_simple (by decide) rfl
  · next hquote hescape _ _ _ _ _ =>
    split
    · next hc => exact readUnits?_hex (hexNumber?_hexDigit c.toNat hc)
    · next hc => exact readUnits?_plain hquote hescape hc

theorem readUnits?_flatMap_append (cs : List Char) : readUnits? (cs.flatMap writeChar ++ r) =
    (readUnits? r).map fun p => (cs.map Char.toNat ++ p.1, p.2) := by
  induction cs with
  | nil => exact (Option.map_id' ..).symm
  | cons c cs ih =>
    rw [List.flatMap_cons, List.append_assoc, readUnits?_writeChar, ih, Option.map_map]
    rfl

theorem readUnits?_flatMap (cs : List Char) :
    readUnits? (cs.flatMap writeChar ++ '"' :: r) = some (cs.map Char.toNat, r) := by
  rw [readUnits?_flatMap_append, readUnits?, Option.map_some, List.append_nil]

end Units

/-- Characters are no surrogates, so each stands for itself. -/
private theorem joinUnits?_toNat (c : Char) (units : List Nat) :
    joinUnits? (c.toNat :: units) = (joinUnits? units).map (c :: ·) := by
  have valid : c.toNat < 0xD800 ∨ 0xDFFF < c.toNat ∧ c.toNat < 0x110000 := c.valid
  rw [joinUnits?.eq_def]
  dsimp only
  rw [if_neg (by omega), if_neg (by omega), Char.ofNat_toNat]
  cases joinUnits? units <;> rfl

theorem joinUnits?_map_toNat (cs : List Char) : joinUnits? (cs.map Char.toNat) = some cs := by
  induction cs with
  | nil => rfl
  | cons c cs ih => rw [List.map_cons, joinUnits?_toNat, ih, Option.map_some]

/-- A literal is read back as the text it spells. -/
theorem readLiteral?_flatMap (s : String) (r : List Char) :
    readLiteral? (s.toList.flatMap writeChar ++ '"' :: r) = some (some s, r) := by
  rw [readLiteral?, readUnits?_flatMap]
  change some ((joinUnits? (s.toList.map Char.toNat)).map String.ofList, r) = _
  rw [joinUnits?_map_toNat, Option.map_some, String.ofList_toList]

section IllFormed
variable {r : List Char}

private theorem readUnits?_illFormed : readUnits? (illFormed ++ r) =
    (readUnits? r).map fun p => ('x'.toNat :: 0xD800 :: 'x'.toNat :: p.1, p.2) := by
  change readUnits? ('x' :: '\\' :: 'u' :: 'd' :: '8' :: '0' :: '0' :: 'x' :: r) = _
  have hhex : hexNumber? ['d', '8', '0', '0'] = some 0xD800 := by decide
  rw [readUnits?_plain (by decide) (by decide) (by decide), readUnits?_hex hhex,
    readUnits?_plain (by decide) (by decide) (by decide)]
  cases readUnits? r <;> rfl

private theorem joinUnits?_illFormed (cs : List Char) (units : List Nat) :
    joinUnits? (cs.map Char.toNat ++ 'x'.toNat :: 0xD800 :: 'x'.toNat :: units) = none := by
  induction cs with
  | nil => rw [List.map_nil, List.nil_append, joinUnits?_toNat]; rfl
  | cons c cs ih => rw [List.map_cons, List.cons_append, joinUnits?_toNat, ih, Option.map_none]

/-- A literal is read to its end past bytes that are not well formed, and has no text then. -/
theorem readLiteral?_illFormed (s : String) (r : List Char) :
    readLiteral? (s.toList.flatMap writeChar ++ (illFormed ++ r)) =
      (readUnits? r).map fun p => (none, p.2) := by
  have hunits : readUnits? (s.toList.flatMap writeChar ++ (illFormed ++ r)) =
      (readUnits? r).map fun p =>
        (s.toList.map Char.toNat ++ 'x'.toNat :: 0xD800 :: 'x'.toNat :: p.1, p.2) := by
    rw [readUnits?_flatMap_append, readUnits?_illFormed, Option.map_map]
    rfl
  rw [readLiteral?, hunits]
  cases readUnits? r with
  | none => rfl
  | some p =>
    change some ((joinUnits? _).map String.ofList, p.2) = _
    rw [joinUnits?_illFormed, Option.map_none]
    rfl

/-- Such bytes are no part of an escape. -/
theorem readUnits?_escape_illFormed : readUnits? ('\\' :: (illFormed ++ r)) = none := rfl

end IllFormed

end Reconciler.Json
