import Mathlib.Data.List.Basic
import Reconciler.Proofs.Text.Utf8

/-! Reading any bytes as text. Every character that is spelled out comes back in its place, and each
longest part that could have begun one, or else the single byte that could not, becomes one
replacement mark. This is the only text that can be read this way, and well-formed bytes read as the
text that they are the UTF-8 of. -/
namespace Reconciler.Utf8

/-- Characters are encoded as the core library encodes them. -/
theorem encodeChar_eq (c : Char) : encodeChar c = String.utf8EncodeChar c := by
  have valid : c.toNat < 0xD800 ∨ 0xDFFF < c.toNat ∧ c.toNat < 0x110000 := c.valid
  simp only [encodeChar, String.utf8EncodeChar, show c.val.toNat = c.toNat from rfl]
  generalize c.toNat = n at valid
  by_cases h1 : n < 0x80
  · rw [if_pos h1, if_pos (by omega)]
  by_cases h2 : n < 0x800
  · rw [if_neg h1, if_pos h2, if_neg (by omega), if_pos (by omega),
      show n / 64 % 32 + 192 = 0xC0 + n / 0x40 by omega, Nat.add_comm (n % 64)]
  by_cases h3 : n < 0x10000
  · rw [if_neg h1, if_neg h2, if_pos h3, if_neg (by omega), if_neg (by omega), if_pos (by omega),
      show n / 4096 % 16 + 224 = 0xE0 + n / 0x1000 by omega, Nat.add_comm (n % 64),
      Nat.add_comm (n / 64 % 64)]
  · rw [if_neg h1, if_neg h2, if_neg h3, if_neg (by omega), if_neg (by omega), if_neg (by omega),
      show n / 262144 % 8 + 240 = 0xF0 + n / 0x40000 by omega, Nat.add_comm (n % 64),
      Nat.add_comm (n / 64 % 64), Nat.add_comm (n / 4096 % 64)]

/-- The bytes of a text are those that the text is made of. -/
theorem encode_eq (s : String) : encode s = s.toByteArray.data.toList := by
  have hchars : encodeChar = String.utf8EncodeChar := funext encodeChar_eq
  rw [← String.utf8Encode_toList, List.utf8Encode, List.toList_data_toByteArray, encode, hchars]

/-- The number of a character leads back to it. -/
theorem toNat_ofNat {n : Nat} (h : n < 0xD800 ∨ 0xDFFF < n ∧ n < 0x110000) :
    (Char.ofNat n).toNat = n := by
  rw [Char.ofNat, dif_pos h]
  rfl

section Completes
variable {b : UInt8} {c : Char} {p : Partial} {bits low high more n : Nat} {tail : List UInt8}

theorem completes_zero_iff : Completes ⟨bits, low, high, 0⟩ tail n ↔ ∃ b : UInt8,
    low ≤ b.toNat ∧ b.toNat ≤ high ∧ tail = [b] ∧ n = bits * 0x40 + (b.toNat - 0x80) := by
  constructor
  · intro h
    cases h with
    | last hl hh hn => exact ⟨_, hl, hh, rfl, hn⟩
  · rintro ⟨b, hl, hh, rfl, hn⟩
    exact .last hl hh hn

theorem completes_succ_iff : Completes ⟨bits, low, high, more + 1⟩ tail n ↔
    ∃ (b : UInt8) (rest : List UInt8), low ≤ b.toNat ∧ b.toNat ≤ high ∧ tail = b :: rest ∧
      Completes ⟨bits * 0x40 + (b.toNat - 0x80), 0x80, 0xBF, more⟩ rest n := by
  constructor
  · intro h
    cases h with
    | more hl hh h => exact ⟨_, _, hl, hh, rfl, h⟩
  · rintro ⟨b, rest, hl, hh, rfl, h⟩
    exact .more hl hh h

inductive Leads (b : UInt8) : Partial → Prop
  | two (hl : 0xC2 ≤ b.toNat) (hh : b.toNat < 0xE0) : Leads b ⟨b.toNat - 0xC0, 0x80, 0xBF, 0⟩
  | three (hl : 0xE0 ≤ b.toNat) (hh : b.toNat < 0xF0) : Leads b
    ⟨b.toNat - 0xE0, if b.toNat = 0xE0 then 0xA0 else 0x80,
      if b.toNat = 0xED then 0x9F else 0xBF, 1⟩
  | four (hl : 0xF0 ≤ b.toNat) (hh : b.toNat < 0xF5) : Leads b
    ⟨b.toNat - 0xF0, if b.toNat = 0xF0 then 0x90 else 0x80,
      if b.toNat = 0xF4 then 0x8F else 0xBF, 2⟩

/-- What a byte in front begins: the character that it is, or a longer one. -/
theorem lead_cases {next : Char ⊕ Partial} (h : lead b = some next) :
    b.toNat < 0x80 ∧ next = .inl (Char.ofNat b.toNat) ∨ ∃ p, next = .inr p ∧ Leads b p := by
  simp only [lead] at h
  split at h
  · next hb => exact .inl ⟨hb, (Option.some.inj h).symm⟩
  split at h
  · cases h
  split at h
  · exact .inr ⟨_, (Option.some.inj h).symm, .two (by omega) (by omega)⟩
  split at h
  · exact .inr ⟨_, (Option.some.inj h).symm, .three (by omega) (by omega)⟩
  split at h
  · exact .inr ⟨_, (Option.some.inj h).symm, .four (by omega) (by omega)⟩
  · cases h

theorem leads_of_lead (h : lead b = some (.inr p)) : Leads b p := by
  rcases lead_cases h with ⟨-, ⟨⟩⟩ | ⟨_, ⟨⟩, hleads⟩
  exact hleads

theorem encodeChar_of_lead (h : lead b = some (.inl c)) : encodeChar c = [b] := by
  rcases lead_cases h with ⟨hb, hc⟩ | ⟨_, ⟨⟩, -⟩
  cases hc
  have hvalid := toNat_ofNat (n := b.toNat) (.inl (by omega))
  simp only [encodeChar, hvalid, if_pos hb, UInt8.ofNat_toNat]

/-- Nothing but the bytes of a character completes what its first byte begins. -/
theorem encodeChar_of_completes (h : lead b = some (.inr p)) (hc : Completes p tail n) :
    (Char.ofNat n).toNat = n ∧ encodeChar (Char.ofNat n) = b :: tail := by
  cases leads_of_lead h with
  | two hlow hhigh =>
    obtain ⟨b1, hl, hh, rfl, hn⟩ := completes_zero_iff.1 hc
    have hvalid := toNat_ofNat (n := n) (.inl (by omega))
    refine ⟨hvalid, ?_⟩
    simp only [encodeChar, hvalid]
    rw [if_neg (by omega), if_pos (by omega), show 0xC0 + n / 0x40 = b.toNat by omega,
      show 0x80 + n % 0x40 = b1.toNat by omega, UInt8.ofNat_toNat, UInt8.ofNat_toNat]
  | three hlow hhigh =>
    obtain ⟨b1, _, hl, hh, rfl, hc1⟩ := completes_succ_iff.1 hc
    obtain ⟨b2, hl', hh', rfl, hn⟩ := completes_zero_iff.1 hc1
    -- the narrower range behind some first bytes keeps out what is too small, and the surrogates
    have hrange : 0x800 ≤ n ∧ (n < 0xD800 ∨ 0xDFFF < n ∧ n < 0x10000) ∧
        0x80 ≤ b1.toNat ∧ b1.toNat ≤ 0xBF := by
      split at hl <;> split at hh <;> omega
    have hvalid := toNat_ofNat (n := n) (by omega)
    refine ⟨hvalid, ?_⟩
    simp only [encodeChar, hvalid]
    rw [if_neg (by omega), if_neg (by omega), if_pos (by omega),
      show 0xE0 + n / 0x1000 = b.toNat by omega, show 0x80 + n / 0x40 % 0x40 = b1.toNat by omega,
      show 0x80 + n % 0x40 = b2.toNat by omega, UInt8.ofNat_toNat, UInt8.ofNat_toNat,
      UInt8.ofNat_toNat]
  | four hlow hhigh =>
    obtain ⟨b1, _, hl, hh, rfl, hc1⟩ := completes_succ_iff.1 hc
    obtain ⟨b2, _, hl', hh', rfl, hc2⟩ := completes_succ_iff.1 hc1
    obtain ⟨b3, hl'', hh'', rfl, hn⟩ := completes_zero_iff.1 hc2
    have hrange : 0x10000 ≤ n ∧ n < 0x110000 ∧ 0x80 ≤ b1.toNat ∧ b1.toNat ≤ 0xBF := by
      split at hl <;> split at hh <;> omega
    have hvalid := toNat_ofNat (n := n) (by omega)
    refine ⟨hvalid, ?_⟩
    simp only [encodeChar, hvalid]
    rw [if_neg (by omega), if_neg (by omega), if_neg (by omega),
      show 0xF0 + n / 0x40000 = b.toNat by omega, show 0x80 + n / 0x1000 % 0x40 = b1.toNat by omega,
      show 0x80 + n / 0x40 % 0x40 = b2.toNat by omega, show 0x80 + n % 0x40 = b3.toNat by omega,
      UInt8.ofNat_toNat, UInt8.ofNat_toNat, UInt8.ofNat_toNat, UInt8.ofNat_toNat]

/-- A first byte and what completes it spell one character, and no other bytes do. -/
theorem encodeChar_eq_cons_iff : encodeChar c = b :: tail ↔
    lead b = some (.inl c) ∧ tail = [] ∨
      ∃ p, lead b = some (.inr p) ∧ Completes p tail c.toNat := by
  constructor
  · intro h
    obtain ⟨b', tail', hencode, hlead⟩ := exists_lead_encodeChar c
    obtain ⟨rfl, rfl⟩ := List.cons.inj (hencode.symm.trans h)
    exact hlead
  · rintro (⟨hlead, rfl⟩ | ⟨p, hlead, hc⟩)
    · exact encodeChar_of_lead hlead
    · have hencode := (encodeChar_of_completes hlead hc).2
      rwa [Char.ofNat_toNat] at hencode

end Completes

structure Partial.Open (p : Partial) : Prop where
  low_le : p.low ≤ p.high
  high_lt : p.high < 256

def Follows (p : Partial) (part : List UInt8) : Prop := ∃ tail n, Completes p (part ++ tail) n

section Follows
variable {b : UInt8} {p : Partial} {bits low high more : Nat} {part : List UInt8}

theorem open_tail : Partial.Open ⟨bits, 0x80, 0xBF, more⟩ := by
  constructor <;> dsimp only <;> omega

theorem open_of_lead (h : lead b = some (.inr p)) : p.Open := by
  cases leads_of_lead h with
  | two => exact open_tail
  | three | four => constructor <;> dsimp only <;> split <;> (try split) <;> omega

/-- The smallest byte that may come next. -/
theorem Partial.Open.range_low (h : p.Open) :
    p.low ≤ (UInt8.ofNat p.low).toNat ∧ (UInt8.ofNat p.low).toNat ≤ p.high := by
  have hlow : (UInt8.ofNat p.low).toNat = p.low :=
    UInt8.toNat_ofNat_of_lt (Nat.lt_of_le_of_lt h.low_le h.high_lt)
  rw [hlow]
  exact ⟨Nat.le_refl _, h.low_le⟩

/-- What a first byte begins can always be completed. -/
theorem follows_nil (h : p.Open) : Follows p [] := by
  obtain ⟨bits, low, high, more⟩ := p
  induction more generalizing bits low high with
  | zero =>
    obtain ⟨hl, hh⟩ := h.range_low
    exact ⟨[.ofNat low], _, .last hl hh rfl⟩
  | succ more ih =>
    obtain ⟨hl, hh⟩ := h.range_low
    obtain ⟨tail, n, hc⟩ := ih (bits * 0x40 + ((UInt8.ofNat low).toNat - 0x80)) 0x80 0xBF open_tail
    exact ⟨.ofNat low :: tail, n, .more hl hh hc⟩

theorem range_of_follows (h : Follows ⟨bits, low, high, more⟩ (b :: part)) :
    low ≤ b.toNat ∧ b.toNat ≤ high := by
  obtain ⟨tail, n, hc⟩ := h
  generalize hbytes : b :: part ++ tail = bytes at hc
  cases hc with
  | last hl hh =>
    obtain ⟨rfl, -⟩ := List.cons.inj hbytes
    exact ⟨hl, hh⟩
  | more hl hh =>
    obtain ⟨rfl, -⟩ := List.cons.inj hbytes
    exact ⟨hl, hh⟩

theorem follows_cons (hl : low ≤ b.toNat) (hh : b.toNat ≤ high) :
    Follows ⟨bits, low, high, more + 1⟩ (b :: part) ↔
      Follows ⟨bits * 0x40 + (b.toNat - 0x80), 0x80, 0xBF, more⟩ part := by
  constructor
  · rintro ⟨tail, n, hc⟩
    cases hc with
    | more _ _ hc => exact ⟨tail, n, hc⟩
  · rintro ⟨tail, n, hc⟩
    exact ⟨tail, n, .more hl hh hc⟩

end Follows

/-- The bytes behind a sequence read in part make no character, and these are all of them that
could have belonged to one. -/
structure BreaksOff (p : Partial) (part rest : List UInt8) : Prop where
  follows : Follows p part
  unfinished : ∀ tail n, Completes p tail n → ¬tail <+: part ++ rest
  longest : ∀ longer, longer <+: part ++ rest → Follows p longer → longer.length ≤ part.length

section BreaksOff
variable {b : UInt8} {p : Partial} {bits low high more : Nat} {part rest bytes : List UInt8}

theorem breaksOff_nil (h : p.Open) : BreaksOff p [] [] where
  follows := follows_nil h
  unfinished := by
    intro tail n hc htail
    obtain rfl := List.prefix_nil.1 htail
    cases hc
  longest := by
    intro longer hlonger _
    exact hlonger.length_le

theorem breaksOff_of_range (h : p.Open) (hb : ¬(p.low ≤ b.toNat ∧ b.toNat ≤ p.high)) :
    BreaksOff p [] (b :: rest) where
  follows := follows_nil h
  unfinished := by
    intro tail n hc htail
    apply hb
    cases hc with
    | last hl hh =>
      obtain ⟨rfl, -⟩ := List.cons_prefix_cons.1 htail
      exact ⟨hl, hh⟩
    | more hl hh =>
      obtain ⟨rfl, -⟩ := List.cons_prefix_cons.1 htail
      exact ⟨hl, hh⟩
  longest := by
    intro longer hlonger hfollows
    cases longer with
    | nil => exact Nat.le_refl _
    | cons b' longer =>
      obtain ⟨rfl, -⟩ := List.cons_prefix_cons.1 hlonger
      exact absurd (range_of_follows hfollows) hb

theorem BreaksOff.cons (hl : low ≤ b.toNat) (hh : b.toNat ≤ high)
    (h : BreaksOff ⟨bits * 0x40 + (b.toNat - 0x80), 0x80, 0xBF, more⟩ part rest) :
    BreaksOff ⟨bits, low, high, more + 1⟩ (b :: part) rest where
  follows := (follows_cons hl hh).2 h.follows
  unfinished := by
    intro tail n hc htail
    cases hc with
    | more _ _ hc =>
      obtain ⟨rfl, hrest⟩ := List.cons_prefix_cons.1 htail
      exact h.unfinished _ n hc hrest
  longest := by
    intro longer hlonger hfollows
    cases longer with
    | nil => exact Nat.zero_le _
    | cons b' longer =>
      obtain ⟨rfl, hrest⟩ := List.cons_prefix_cons.1 hlonger
      exact Nat.succ_le_succ (h.longest longer hrest ((follows_cons hl hh).1 hfollows))

theorem decodeFrom_of_range (h : ¬(p.low ≤ b.toNat ∧ b.toNat ≤ p.high)) :
    decodeFrom (some p) (b :: rest) = none :: decodeFrom none (b :: rest) := by
  simp only [decodeFrom, if_neg h]

/-- What a sequence read in part comes to. -/
theorem decodeFrom_some_cases (h : p.Open) (bytes : List UInt8) :
    (∃ tail rest n, bytes = tail ++ rest ∧ Completes p tail n) ∨
      ∃ part rest, bytes = part ++ rest ∧ BreaksOff p part rest ∧
        decodeFrom (some p) bytes = none :: decodeFrom none rest := by
  induction bytes generalizing p with
  | nil => exact .inr ⟨[], [], rfl, breaksOff_nil h, rfl⟩
  | cons b bytes ih =>
    by_cases hb : p.low ≤ b.toNat ∧ b.toNat ≤ p.high
    · obtain ⟨bits, low, high, more⟩ := p
      obtain ⟨hl, hh⟩ := hb
      cases more with
      | zero => exact .inl ⟨[b], bytes, _, rfl, .last hl hh rfl⟩
      | succ more =>
        have hnext := ih (p := ⟨bits * 0x40 + (b.toNat - 0x80), 0x80, 0xBF, more⟩) open_tail
        rcases hnext with ⟨tail, rest, n, rfl, hc⟩ | ⟨part, rest, rfl, hbreaks, hdecode⟩
        · exact .inl ⟨b :: tail, rest, n, rfl, .more hl hh hc⟩
        · exact .inr ⟨b :: part, rest, rfl, hbreaks.cons hl hh,
            (decodeFrom_more hl hh).trans hdecode⟩
    · exact .inr ⟨[], b :: bytes, rfl, breaksOff_of_range h hb, decodeFrom_of_range hb⟩

end BreaksOff

def Begins (part : List UInt8) : Prop := ∃ c, part <+: String.utf8EncodeChar c

/-- What is read as one mark where no character stands in front of the bytes: as much of them as
begins a character, or one byte where they do not even begin one. -/
structure MaximalPart (part rest : List UInt8) : Prop where
  nonempty : part ≠ []
  unreadable : ∀ c, ¬String.utf8EncodeChar c <+: part ++ rest
  begins : Begins part ∨ part.length = 1
  longest : ∀ longer, longer <+: part ++ rest → Begins longer → longer.length ≤ part.length

inductive ReadAs : List UInt8 → List Char → Prop
  | nil : ReadAs [] []
  | char (c : Char) {rest : List UInt8} {cs : List Char} (h : ReadAs rest cs) :
      ReadAs (String.utf8EncodeChar c ++ rest) (c :: cs)
  | mark {part rest : List UInt8} {cs : List Char} (hpart : MaximalPart part rest)
      (h : ReadAs rest cs) : ReadAs (part ++ rest) ('\ufffd' :: cs)

section ReadAs
variable {b : UInt8} {c : Char} {bytes part rest part' rest' : List UInt8} {cs : List Char}
  {p : Partial}

/-- A part begins a character if it is one, or goes on as its first byte demands. -/
theorem begins_cons_iff : Begins (b :: part) ↔
    (∃ c, lead b = some (.inl c) ∧ part = []) ∨ ∃ p, lead b = some (.inr p) ∧ Follows p part := by
  unfold Begins
  simp only [← encodeChar_eq]
  constructor
  · rintro ⟨c, tail, hencode⟩
    rcases encodeChar_eq_cons_iff.1 hencode.symm with ⟨hlead, hnil⟩ | ⟨p, hlead, hc⟩
    · exact .inl ⟨c, hlead, (List.append_eq_nil_iff.1 hnil).1⟩
    · exact .inr ⟨p, hlead, tail, _, hc⟩
  · rintro (⟨c, hlead, rfl⟩ | ⟨p, hlead, tail, n, hc⟩)
    · exact ⟨c, [], (encodeChar_of_lead hlead).symm⟩
    · exact ⟨Char.ofNat n, tail, (encodeChar_of_completes hlead hc).2.symm⟩

theorem exists_tail_of_prefix (h : String.utf8EncodeChar c <+: b :: rest) :
    ∃ tail, encodeChar c = b :: tail ∧ tail <+: rest := by
  rw [← encodeChar_eq] at h
  obtain ⟨b', tail, hencode, -⟩ := exists_lead_encodeChar c
  rw [hencode, List.cons_prefix_cons] at h
  obtain ⟨rfl, htail⟩ := h
  exact ⟨tail, hencode, htail⟩

/-- A byte that begins no character is read by itself. -/
theorem maximalPart_of_no_lead (h : lead b = none) : MaximalPart [b] rest := by
  have hnone : ∀ part, ¬Begins (b :: part) := by
    intro part hbegins
    rcases begins_cons_iff.1 hbegins with ⟨c, hlead, -⟩ | ⟨p, hlead, -⟩
    · exact absurd (h.symm.trans hlead) nofun
    · exact absurd (h.symm.trans hlead) nofun
  constructor
  · exact List.cons_ne_nil b []
  · intro c hc
    obtain ⟨tail, hencode, -⟩ := exists_tail_of_prefix hc
    apply hnone tail
    exact ⟨c, [], by rw [List.append_nil, ← hencode, encodeChar_eq]⟩
  · exact .inr rfl
  · intro longer hlonger hbegins
    cases longer with
    | nil => exact Nat.zero_le _
    | cons b' longer =>
      obtain ⟨rfl, -⟩ := List.cons_prefix_cons.1 hlonger
      exact absurd hbegins (hnone longer)

/-- A sequence that breaks off is read as one mark. -/
theorem BreaksOff.maximalPart (h : BreaksOff p part rest) (hlead : lead b = some (.inr p)) :
    MaximalPart (b :: part) rest := by
  constructor
  · exact List.cons_ne_nil b part
  · intro c hc
    obtain ⟨tail, hencode, htail⟩ := exists_tail_of_prefix hc
    rcases encodeChar_eq_cons_iff.1 hencode with ⟨hlead', -⟩ | ⟨p', hlead', hcompletes⟩
    · exact absurd (hlead.symm.trans hlead') nofun
    · obtain rfl := Sum.inr.inj (Option.some.inj (hlead.symm.trans hlead'))
      exact h.unfinished tail _ hcompletes htail
  · exact .inl (begins_cons_iff.2 (.inr ⟨p, hlead, h.follows⟩))
  · intro longer hlonger hbegins
    cases longer with
    | nil => exact Nat.zero_le _
    | cons b' longer =>
      obtain ⟨rfl, hrest⟩ := List.cons_prefix_cons.1 hlonger
      apply Nat.succ_le_succ
      rcases begins_cons_iff.1 hbegins with ⟨c, hlead', -⟩ | ⟨p', hlead', hfollows⟩
      · exact absurd (hlead.symm.trans hlead') nofun
      · obtain rfl := Sum.inr.inj (Option.some.inj (hlead.symm.trans hlead'))
        exact h.longest longer hrest hfollows

/-- What stands in front of any bytes: a character, or a part that is read as one mark. -/
theorem decodeFrom_cons_cases (b : UInt8) (bytes : List UInt8) :
    (∃ c rest, b :: bytes = String.utf8EncodeChar c ++ rest) ∨
      ∃ part rest, b :: bytes = part ++ rest ∧ MaximalPart part rest ∧
        decodeFrom none (b :: bytes) = none :: decodeFrom none rest := by
  cases hlead : lead b with
  | none => exact .inr ⟨[b], bytes, rfl, maximalPart_of_no_lead hlead, by rw [decodeFrom, hlead]⟩
  | some next =>
    cases next with
    | inl c => exact .inl ⟨c, bytes, by rw [← encodeChar_eq, encodeChar_of_lead hlead]; rfl⟩
    | inr p =>
      rcases decodeFrom_some_cases (open_of_lead hlead) bytes with
        ⟨tail, rest, n, rfl, hc⟩ | ⟨part, rest, rfl, hbreaks, hdecode⟩
      · refine .inl ⟨Char.ofNat n, rest, ?_⟩
        rw [← encodeChar_eq, (encodeChar_of_completes hlead hc).2]
        rfl
      · refine .inr ⟨b :: part, rest, rfl, hbreaks.maximalPart hlead, ?_⟩
        exact (decodeFrom_lead hlead).trans hdecode

theorem utf8EncodeChar_ne_nil (c : Char) : String.utf8EncodeChar c ≠ [] := by
  obtain ⟨b, tail, hencode, -⟩ := exists_lead_encodeChar c
  rw [← encodeChar_eq, hencode]
  exact List.cons_ne_nil b tail

/-- Bytes can be read as the text that they are decoded to. -/
theorem readAs_marked (bytes : List UInt8) : ReadAs bytes (marked (decodeFrom none bytes)) := by
  induction hlength : bytes.length using Nat.strongRecOn generalizing bytes with
  | ind length ih =>
    subst hlength
    cases bytes with
    | nil => exact .nil
    | cons b bytes =>
      rcases decodeFrom_cons_cases b bytes with
        ⟨c, rest, hsplit⟩ | ⟨part, rest, hsplit, hpart, hdecode⟩
      · rw [hsplit, ← encodeChar_eq, decodeFrom_encodeChar, encodeChar_eq]
        have hpos := List.length_pos_of_ne_nil (utf8EncodeChar_ne_nil c)
        refine .char c (ih _ ?_ rest rfl)
        rw [hsplit, List.length_append]
        omega
      · rw [hdecode, hsplit]
        have hpos := List.length_pos_of_ne_nil hpart.nonempty
        refine .mark hpart (ih _ ?_ rest rfl)
        rw [hsplit, List.length_append]
        omega

theorem MaximalPart.length_le (h : MaximalPart part rest) (h' : MaximalPart part' rest')
    (heq : part ++ rest = part' ++ rest') : part'.length ≤ part.length := by
  rcases h'.begins with hbegins | hone
  · exact h.longest part' (heq ▸ List.prefix_append part' rest') hbegins
  · rw [hone]
    exact List.length_pos_of_ne_nil h.nonempty

/-- Bytes can be read as no other text. -/
theorem marked_of_readAs (h : ReadAs bytes cs) : marked (decodeFrom none bytes) = cs := by
  induction h with
  | nil => rfl
  | char c _ ih =>
    rw [← encodeChar_eq, decodeFrom_encodeChar]
    exact congrArg (c :: ·) ih
  | @mark part rest cs hpart _ ih =>
    obtain ⟨b, part, rfl⟩ := List.exists_cons_of_ne_nil hpart.nonempty
    rcases decodeFrom_cons_cases b (part ++ rest) with
      ⟨c, tail, hsplit⟩ | ⟨part', rest', hsplit, hpart', hdecode⟩
    · exact absurd ⟨tail, hsplit.symm⟩ (hpart.unreadable c)
    · have hlength := Nat.le_antisymm (hpart'.length_le hpart hsplit.symm)
        (hpart.length_le hpart' hsplit)
      have hsame : (b :: part) ++ rest = part' ++ rest' := hsplit
      obtain ⟨-, rfl⟩ := List.append_inj hsame hlength
      calc marked (decodeFrom none (b :: (part ++ rest)))
        _ = marked (none :: decodeFrom none rest) := congrArg marked hdecode
        _ = replacement :: cs := congrArg (replacement :: ·) ih

end ReadAs

/-- Bytes can be read as one text only, and that is the one they are decoded to. -/
theorem readAs_iff {bytes : List UInt8} {cs : List Char} :
    ReadAs bytes cs ↔ (decodeLossy bytes).toList = cs := by
  rw [decodeLossy, String.toList_ofList]
  exact ⟨marked_of_readAs, fun h => h ▸ readAs_marked bytes⟩

theorem decodeLossy_toByteArray (s : String) : decodeLossy s.toByteArray.data.toList = s := by
  rw [← encode_eq, decodeLossy_encode]

end Reconciler.Utf8
