import Reconciler.Text.Utf8

/-! A text comes back from its UTF-8 bytes. -/
namespace Reconciler.Utf8

section Steps
variable {b : UInt8} {rest : List UInt8}

theorem decodeFrom_whole {c : Char} (h : lead b = some (.inl c)) :
    decodeFrom none (b :: rest) = some c :: decodeFrom none rest := by
  rw [decodeFrom, h]

theorem decodeFrom_lead {p : Partial} (h : lead b = some (.inr p)) :
    decodeFrom none (b :: rest) = decodeFrom (some p) rest := by
  rw [decodeFrom, h]

theorem decodeFrom_last {bits low high : Nat} (hl : low ≤ b.toNat) (hh : b.toNat ≤ high) :
    decodeFrom (some ⟨bits, low, high, 0⟩) (b :: rest) =
      some (Char.ofNat (bits * 0x40 + (b.toNat - 0x80))) :: decodeFrom none rest := by
  simp [decodeFrom, hl, hh]

theorem decodeFrom_more {bits low high more : Nat} (hl : low ≤ b.toNat)
    (hh : b.toNat ≤ high) :
    decodeFrom (some ⟨bits, low, high, more + 1⟩) (b :: rest) =
      decodeFrom (some ⟨bits * 0x40 + (b.toNat - 0x80), 0x80, 0xBF, more⟩) rest := by
  simp [decodeFrom, hl, hh]

end Steps

private theorem toNat_byte {n : Nat} (h : n < 256) : (UInt8.ofNat n).toNat = n :=
  UInt8.toNat_ofNat_of_lt h

private theorem lead_two {n : Nat} (low : 0x80 ≤ n) (high : n < 0x800) :
    lead (.ofNat (0xC0 + n / 0x40)) = some (.inr ⟨n / 0x40, 0x80, 0xBF, 0⟩) := by
  have hb : (UInt8.ofNat (0xC0 + n / 0x40)).toNat = 0xC0 + n / 0x40 := toNat_byte (by omega)
  simp only [lead, hb]
  rw [if_neg (by omega), if_neg (by omega), if_pos (by omega),
    Nat.add_sub_cancel_left]

private theorem lead_three {n : Nat} (high : n < 0x10000) :
    lead (.ofNat (0xE0 + n / 0x1000)) = some (.inr ⟨n / 0x1000,
      if 0xE0 + n / 0x1000 = 0xE0 then 0xA0 else 0x80,
      if 0xE0 + n / 0x1000 = 0xED then 0x9F else 0xBF, 1⟩) := by
  have hb : (UInt8.ofNat (0xE0 + n / 0x1000)).toNat = 0xE0 + n / 0x1000 := toNat_byte (by omega)
  simp only [lead, hb]
  rw [if_neg (by omega), if_neg (by omega), if_neg (by omega), if_pos (by omega),
    Nat.add_sub_cancel_left]

private theorem lead_four {n : Nat} (high : n < 0x110000) :
    lead (.ofNat (0xF0 + n / 0x40000)) = some (.inr ⟨n / 0x40000,
      if 0xF0 + n / 0x40000 = 0xF0 then 0x90 else 0x80,
      if 0xF0 + n / 0x40000 = 0xF4 then 0x8F else 0xBF, 2⟩) := by
  have hb : (UInt8.ofNat (0xF0 + n / 0x40000)).toNat = 0xF0 + n / 0x40000 := toNat_byte (by omega)
  simp only [lead, hb]
  rw [if_neg (by omega), if_neg (by omega), if_neg (by omega), if_neg (by omega),
    if_pos (by omega), Nat.add_sub_cancel_left]

/-- A byte that carries six bits of a character. -/
private theorem toNat_tail (m : Nat) : (UInt8.ofNat (0x80 + m % 0x40)).toNat = 0x80 + m % 0x40 :=
  toNat_byte (by omega)

/-- The bytes that make a sequence read in part into the character with a number. -/
inductive Completes : Partial → List UInt8 → Nat → Prop
  | last {b : UInt8} {bits low high n : Nat} (hl : low ≤ b.toNat) (hh : b.toNat ≤ high)
      (hn : n = bits * 0x40 + (b.toNat - 0x80)) : Completes ⟨bits, low, high, 0⟩ [b] n
  | more {b : UInt8} {bits low high more : Nat} {tail : List UInt8} {n : Nat}
      (hl : low ≤ b.toNat) (hh : b.toNat ≤ high)
      (h : Completes ⟨bits * 0x40 + (b.toNat - 0x80), 0x80, 0xBF, more⟩ tail n) :
      Completes ⟨bits, low, high, more + 1⟩ (b :: tail) n

theorem Completes.decodeFrom {p : Partial} {tail : List UInt8} {n : Nat} (h : Completes p tail n)
    (rest : List UInt8) :
    decodeFrom (some p) (tail ++ rest) = some (Char.ofNat n) :: decodeFrom none rest := by
  induction h with
  | last hl hh hn => exact hn ▸ decodeFrom_last hl hh
  | more hl hh _ ih => exact (decodeFrom_more hl hh).trans ih

/-- A character is its first byte alone, or what that byte leads to. -/
theorem exists_lead_encodeChar (c : Char) : ∃ b tail, encodeChar c = b :: tail ∧
    (lead b = some (.inl c) ∧ tail = [] ∨
      ∃ p, lead b = some (.inr p) ∧ Completes p tail c.toNat) := by
  have valid : c.toNat < 0xD800 ∨ 0xDFFF < c.toNat ∧ c.toNat < 0x110000 := c.valid
  have back : Char.ofNat c.toNat = c := Char.ofNat_toNat c
  simp only [encodeChar]
  generalize c.toNat = n at valid back
  have last := toNat_tail n
  have middle := toNat_tail (n / 0x40)
  have first := toNat_tail (n / 0x1000)
  split
  · next h =>
    refine ⟨_, _, rfl, .inl ⟨?_, rfl⟩⟩
    simp only [lead, toNat_byte (show n < 256 by omega), if_pos h, back]
  split
  · next h0 h =>
    refine ⟨_, _, rfl, .inr ⟨_, lead_two (by omega) h, ?_⟩⟩
    exact .last (by omega) (by omega) (by omega)
  split
  · next h0 h1 h =>
    refine ⟨_, _, rfl, .inr ⟨_, lead_three h, ?_⟩⟩
    refine .more (by split <;> omega) (by split <;> omega) ?_
    exact .last (by omega) (by omega) (by omega)
  · next h0 h1 h2 =>
    refine ⟨_, _, rfl, .inr ⟨_, lead_four (by omega), ?_⟩⟩
    refine .more (by split <;> omega) (by split <;> omega) (.more (by omega) (by omega) ?_)
    exact .last (by omega) (by omega) (by omega)

/-- The bytes of a character are read as this character, whatever follows. -/
theorem decodeFrom_encodeChar (c : Char) (rest : List UInt8) :
    decodeFrom none (encodeChar c ++ rest) = some c :: decodeFrom none rest := by
  obtain ⟨b, tail, hencode, ⟨hlead, rfl⟩ | ⟨p, hlead, hcompletes⟩⟩ := exists_lead_encodeChar c
  · rw [hencode]
    exact decodeFrom_whole hlead
  · rw [hencode, List.cons_append, decodeFrom_lead hlead, hcompletes.decodeFrom rest,
      Char.ofNat_toNat]

theorem decodeFrom_encode (cs : List Char) :
    decodeFrom none (cs.flatMap encodeChar) = cs.map some := by
  induction cs with
  | nil => rfl
  | cons c cs ih => rw [List.flatMap_cons, decodeFrom_encodeChar, ih, List.map_cons]

@[simp] theorem marked_map_some (cs : List Char) : marked (cs.map some) = cs := by
  rw [marked, List.map_map]
  exact List.map_id cs

/-- The bytes of a text are read as this text. -/
@[simp] theorem decodeLossy_encode (s : String) : decodeLossy (encode s) = s := by
  rw [decodeLossy, encode, decodeFrom_encode, marked_map_some, String.ofList_toList]

@[simp] theorem decode?_encode (s : String) : decode? (encode s) = some s := by
  simp [decode?]

end Reconciler.Utf8
