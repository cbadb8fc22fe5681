import Reconciler.Proofs.Json.Literal
import Reconciler.Proofs.Json.Number
import Reconciler.Proofs.Text.Utf8

/-! Reading a JSON text undoes writing it, on one line or indented. -/
namespace Reconciler

namespace Json

/-- Texts that can be written at all: no literal without a text, no fraction but of digits. -/
inductive WellSpelled : Json → Prop
  | null : WellSpelled .null
  | bool (b : Bool) : WellSpelled (.bool b)
  | number {n : Number} (hn : n.WellSpelled) : WellSpelled (.number n)
  | text (s : String) : WellSpelled (.text s)
  | array {items : List Json} (h : ∀ j ∈ items, WellSpelled j) : WellSpelled (.array items)
  | record {members : List (String × Json)} (h : ∀ m ∈ members, WellSpelled m.2) :
    WellSpelled (.record members)

section Blanks

def Blank (g : List Char) : Prop := ∀ c ∈ g, isBlank c = true

theorem blank_nil : Blank [] := List.forall_mem_nil _

theorem skipBlanks_append {g : List Char} (hg : Blank g) (s : List Char) :
    skipBlanks (g ++ s) = skipBlanks s := List.dropWhile_append_of_pos hg

theorem skipBlanks_cons {c : Char} (hc : isBlank c = false) (s : List Char) :
    skipBlanks (c :: s) = c :: s := List.dropWhile_cons_of_neg (by simp [hc])

@[simp] theorem skipBlanks_skipBlanks (s : List Char) :
    skipBlanks (skipBlanks s) = skipBlanks s := by
  induction s with
  | nil => rfl
  | cons c s ih =>
    cases hc : isBlank c with
    | true => simpa [skipBlanks, hc] using ih
    | false => rw [skipBlanks_cons hc, skipBlanks_cons hc]

/-- A number ends where blanks or a closing token follow. -/
theorem continuesNumber_append {g r : List Char} (hg : Blank g) (hr : continuesNumber r = false) :
    continuesNumber (g ++ r) = false := by
  cases g with
  | nil => exact hr
  | cons c g =>
    have hc : isBlank c = true := hg c List.mem_cons_self
    simp only [isBlank, Bool.or_eq_true, beq_iff_eq] at hc
    rcases hc with ((rfl | rfl) | rfl) | rfl <;> rfl

end Blanks
end Json

/-- Layouts that put only blanks between tokens. -/
structure Layout.Lawful (layout : Layout) : Prop where
  gap : ∀ depth, Json.Blank (layout.gap depth)
  colon : ∃ g, layout.colon = ':' :: g ∧ Json.Blank g

theorem Layout.lawful_compact : Layout.compact.Lawful where
  gap _ := Json.blank_nil
  colon := ⟨[], rfl, Json.blank_nil⟩

theorem Layout.lawful_pretty : Layout.pretty.Lawful where
  gap depth := by
    intro c hc
    rcases List.mem_cons.1 hc with rfl | hc
    · rfl
    · rw [List.eq_of_mem_replicate hc]
      rfl
  colon := ⟨[' '], rfl, by simp [Json.Blank, Json.isBlank]⟩

namespace Json

private def notInNumber : List Char :=
  [' ', '\t', '\n', '\r', 'n', 't', 'f', '"', '[', ']', '\x7b']

private theorem notInNumber_ne :
    ∀ x ∈ notInNumber, x ≠ '-' ∧ isDecimalDigit x = false := by
  simp [notInNumber, isDecimalDigit]

private theorem head_ne {c : Char} (hc : c = '-' ∨ isDecimalDigit c = true) :
    ∀ x ∈ notInNumber, c ≠ x := by
  rintro x hx rfl
  obtain ⟨hsign, hdigit⟩ := notInNumber_ne c hx
  rcases hc with h | h
  · exact hsign h
  · rw [hdigit] at h
    cases h

private theorem isBlank_head {c : Char} (hc : c = '-' ∨ isDecimalDigit c = true) :
    isBlank c = false := by
  have hne := head_ne hc
  simp [isBlank, hne ' ' (by decide), hne '\t' (by decide), hne '\n' (by decide),
    hne '\r' (by decide)]

/-- What a value can begin with: no blank, and nothing that closes. -/
theorem exists_write_eq_cons (layout : Layout) (depth : Nat) (j : Json) :
    ∃ c r, j.write layout depth = c :: r ∧ isBlank c = false ∧ c ≠ ']' := by
  cases j with
  | null => exact ⟨_, _, rfl, rfl, by decide⟩
  | bool b => cases b <;> exact ⟨_, _, rfl, rfl, by decide⟩
  | number n =>
    obtain ⟨c, r, h, hc⟩ := exists_write_eq n
    exact ⟨c, r, by rw [write, h], isBlank_head hc, head_ne hc _ (by decide)⟩
  | string s => cases s <;> exact ⟨_, _, rfl, rfl, by decide⟩
  | array items => cases items <;> exact ⟨_, _, rfl, rfl, by decide⟩
  | object members => cases members <;> exact ⟨_, _, rfl, rfl, by decide⟩

theorem skipBlanks_write (layout : Layout) (depth : Nat) (j : Json) (r : List Char) :
    skipBlanks (j.write layout depth ++ r) = j.write layout depth ++ r := by
  obtain ⟨c, t, h, hc, -⟩ := exists_write_eq_cons layout depth j
  rw [h]
  exact skipBlanks_cons hc _

theorem length_write_pos (layout : Layout) (depth : Nat) (j : Json) :
    0 < (j.write layout depth).length := by
  obtain ⟨c, r, h, -⟩ := exists_write_eq_cons layout depth j
  rw [h]
  exact Nat.zero_lt_succ _

section Steps
variable {fuel : Nat} {g s : List Char}

/-- One reading after another. -/
private theorem read_then {α β γ : Type} (x : Option (α × List Char))
    (rest : List Char → Option (β × List Char)) (join : α → β → γ) :
    (do
      let (a, r) ← x
      let (b, r) ← rest r
      return (join a b, r)) =
      x.bind fun p => (rest p.2).map fun q => (join p.1 q.1, q.2) := by
  cases x with
  | none => rfl
  | some p =>
    change (rest p.2).bind _ = (rest p.2).map _
    cases rest p.2 <;> rfl

/-- Blanks in front of a value do not matter. -/
theorem readValue?_skipBlanks : readValue? fuel (skipBlanks s) = readValue? fuel s := by
  cases fuel with
  | zero => rfl
  | succ fuel => rw [readValue?, readValue?, skipBlanks_skipBlanks]

theorem readValue?_blanks (hg : Blank g) : readValue? fuel (g ++ s) = readValue? fuel s := by
  rw [← readValue?_skipBlanks, skipBlanks_append hg, readValue?_skipBlanks]

private theorem readValue?_literal :
    readValue? (fuel + 1) ('"' :: s) = (readLiteral? s).map fun p => (.string p.1, p.2) := by
  rw [readValue?, skipBlanks_cons rfl]
  simp only
  cases readLiteral? s <;> rfl

private theorem readValue?_array (h : ∀ r, skipBlanks s ≠ ']' :: r) :
    readValue? (fuel + 1) ('[' :: s) = (readValue? fuel s).bind fun p =>
      (readItems? fuel p.2).map fun q => (.array (p.1 :: q.1), q.2) := by
  rw [readValue?, skipBlanks_cons rfl]
  simp only
  rw [readValue?_skipBlanks]
  exact read_then _ _ fun j js => Json.array (j :: js)

private theorem readMember?_skipBlanks :
    readMember? fuel (skipBlanks s) = readMember? fuel s := by
  cases fuel with
  | zero => rfl
  | succ fuel => rw [readMember?, readMember?, skipBlanks_skipBlanks]

private theorem readMember?_blanks (hg : Blank g) :
    readMember? fuel (g ++ s) = readMember? fuel s := by
  rw [← readMember?_skipBlanks, skipBlanks_append hg, readMember?_skipBlanks]

private theorem readValue?_object (h : ∀ r, skipBlanks s ≠ '\x7d' :: r) :
    readValue? (fuel + 1) ('\x7b' :: s) = (readMember? fuel s).bind fun p =>
      (readMembers? fuel p.2).map fun q => (.object (p.1 :: q.1), q.2) := by
  rw [readValue?, skipBlanks_cons rfl]
  simp only
  rw [readMember?_skipBlanks]
  exact read_then _ _ fun m ms => Json.object (m :: ms)

private theorem readValue?_number {c : Char} (hc : c = '-' ∨ isDecimalDigit c = true) :
    readValue? (fuel + 1) (c :: s) = (readNumber? (c :: s)).map fun p => (.number p.1, p.2) := by
  have hne := head_ne hc
  rw [readValue?, skipBlanks_cons (isBlank_head hc)]
  split
  case h_7 => cases readNumber? (c :: s) <;> rfl
  all_goals next h => exact absurd (List.cons.inj h).1 (hne _ (by decide))

private theorem readItems?_comma :
    readItems? (fuel + 1) (',' :: s) = (readValue? fuel s).bind fun p =>
      (readItems? fuel p.2).map fun q => (p.1 :: q.1, q.2) := by
  rw [readItems?, skipBlanks_cons rfl]
  simp only
  exact read_then _ _ List.cons

private theorem readItems?_close (hg : Blank g) :
    readItems? (fuel + 1) (g ++ ']' :: s) = some ([], s) := by
  rw [readItems?, skipBlanks_append hg, skipBlanks_cons rfl]
  simp only

private theorem readMembers?_comma :
    readMembers? (fuel + 1) (',' :: s) = (readMember? fuel s).bind fun p =>
      (readMembers? fuel p.2).map fun q => (p.1 :: q.1, q.2) := by
  rw [readMembers?, skipBlanks_cons rfl]
  simp only
  exact read_then _ _ List.cons

private theorem readMembers?_close (hg : Blank g) :
    readMembers? (fuel + 1) (g ++ '\x7d' :: s) = some ([], s) := by
  rw [readMembers?, skipBlanks_append hg, skipBlanks_cons rfl]
  simp only

end Steps

section Write
variable {layout : Layout}

/-- A value is read back from its spelling, whatever follows that cannot belong to it. -/
def ReadsBack (layout : Layout) (j : Json) : Prop :=
  ∀ fuel depth r, (j.write layout depth).length ≤ fuel → continuesNumber r = false →
    readValue? fuel (j.write layout depth ++ r) = some (j, r)

theorem continuesNumber_writeItems {depth : Nat} {js : List Json} {r : List Char}
    (hr : continuesNumber r = false) :
    continuesNumber (writeItems layout depth js ++ r) = false := by
  cases js with
  | nil => exact hr
  | cons j js => rfl

theorem continuesNumber_writeMembers {depth : Nat} {ms : List (Option String × Json)}
    {r : List Char} (hr : continuesNumber r = false) :
    continuesNumber (writeMembers layout depth ms ++ r) = false := by
  cases ms with
  | nil => exact hr
  | cons m ms => rfl

/-- Items are read back up to the bracket that closes them. -/
theorem readItems?_writeItems (hl : layout.Lawful) {js : List Json}
    (hjs : ∀ j ∈ js, ReadsBack layout j) {fuel depth : Nat} {g r : List Char} (hg : Blank g)
    (hfuel : (writeItems layout depth js).length < fuel) :
    readItems? fuel (writeItems layout depth js ++ (g ++ ']' :: r)) = some (js, r) := by
  induction js generalizing fuel with
  | nil =>
    obtain ⟨fuel, rfl⟩ := Nat.exists_eq_succ_of_ne_zero (Nat.ne_of_gt hfuel)
    exact readItems?_close hg
  | cons j js ih =>
    obtain ⟨fuel, rfl⟩ := Nat.exists_eq_succ_of_ne_zero (Nat.ne_zero_of_lt hfuel)
    simp only [writeItems, List.length_cons, List.length_append] at hfuel
    have hrest : continuesNumber (writeItems layout depth js ++ (g ++ ']' :: r)) = false :=
      continuesNumber_writeItems (continuesNumber_append hg rfl)
    simp only [writeItems, List.cons_append, List.append_assoc]
    rw [readItems?_comma, readValue?_blanks (hl.gap depth),
      hjs j List.mem_cons_self fuel depth _ (by omega) hrest, Option.bind_some,
      ih (fun j hj => hjs j (List.mem_cons_of_mem _ hj)) (by omega)]
    rfl

theorem readMember?_write (hl : layout.Lawful) {name : String} {j : Json}
    (hj : ReadsBack layout j) {fuel depth : Nat} {r : List Char}
    (hfuel : (j.write layout depth).length < fuel) (hr : continuesNumber r = false) :
    readMember? fuel (writeText name.toList ++ (layout.colon ++ (j.write layout depth ++ r))) =
      some ((some name, j), r) := by
  obtain ⟨fuel, rfl⟩ := Nat.exists_eq_succ_of_ne_zero (Nat.ne_zero_of_lt hfuel)
  obtain ⟨g, hcolon, hg⟩ := hl.colon
  rw [hcolon, writeText, List.cons_append, List.append_assoc, readMember?, skipBlanks_cons rfl]
  simp only [List.cons_append, List.nil_append, readLiteral?_flatMap, Option.bind_eq_bind,
    Option.bind_some, skipBlanks_cons (c := ':') rfl]
  rw [readValue?_blanks hg, hj fuel depth r (by omega) hr]
  rfl

/-- Members are read back up to the brace that closes them. -/
theorem readMembers?_writeMembers (hl : layout.Lawful) {ms : List (String × Json)}
    (hms : ∀ m ∈ ms, ReadsBack layout m.2) {fuel depth : Nat} {g r : List Char} (hg : Blank g)
    (hfuel : (writeMembers layout depth (ms.map fun m => (some m.1, m.2))).length < fuel) :
    readMembers? fuel (writeMembers layout depth (ms.map fun m => (some m.1, m.2)) ++
      (g ++ '\x7d' :: r)) = some (ms.map fun m => (some m.1, m.2), r) := by
  induction ms generalizing fuel with
  | nil =>
    obtain ⟨fuel, rfl⟩ := Nat.exists_eq_succ_of_ne_zero (Nat.ne_of_gt hfuel)
    exact readMembers?_close hg
  | cons m ms ih =>
    obtain ⟨fuel, rfl⟩ := Nat.exists_eq_succ_of_ne_zero (Nat.ne_zero_of_lt hfuel)
    simp only [List.map_cons, writeMembers, writeLiteral, writeText, List.length_cons,
      List.length_append] at hfuel
    have hrest : continuesNumber (writeMembers layout depth (ms.map fun m => (some m.1, m.2)) ++
        (g ++ '\x7d' :: r)) = false :=
      continuesNumber_writeMembers (continuesNumber_append hg rfl)
    simp only [List.map_cons, writeMembers, writeLiteral, List.cons_append, List.append_assoc]
    rw [readMembers?_comma, readMember?_blanks (hl.gap depth),
      readMember?_write hl (hms m List.mem_cons_self) (by omega) hrest, Option.bind_some,
      ih (fun m hm => hms m (List.mem_cons_of_mem _ hm)) (by omega)]
    rfl

theorem skipBlanks_gap_write (hl : layout.Lawful) (depth : Nat) (j : Json) (r : List Char) :
    ∀ t, skipBlanks (layout.gap depth ++ (j.write layout depth ++ r)) ≠ ']' :: t := by
  intro t ht
  obtain ⟨c, w, hw, -, hc⟩ := exists_write_eq_cons layout depth j
  rw [skipBlanks_append (hl.gap depth), skipBlanks_write, hw, List.cons_append] at ht
  exact hc (List.cons.inj ht).1

theorem skipBlanks_gap_writeText (hl : layout.Lawful) (depth : Nat) (name r : List Char) :
    ∀ t, skipBlanks (layout.gap depth ++ (writeText name ++ r)) ≠ '\x7d' :: t := by
  intro t ht
  rw [skipBlanks_append (hl.gap depth), writeText, List.cons_append, skipBlanks_cons rfl] at ht
  cases (List.cons.inj ht).1

/-- A spelling has at least one character, so there is always fuel for one step. -/
private theorem readsBack_of_step {j : Json}
    (h : ∀ fuel depth r, (j.write layout depth).length ≤ fuel + 1 → continuesNumber r = false →
      readValue? (fuel + 1) (j.write layout depth ++ r) = some (j, r)) : ReadsBack layout j := by
  intro fuel depth r hfuel hr
  cases fuel with
  | zero => exact absurd hfuel (Nat.not_le_of_lt (length_write_pos layout depth j))
  | succ fuel => exact h fuel depth r hfuel hr

theorem readsBack_number {n : Number} (hn : n.WellSpelled) : ReadsBack layout (.number n) := by
  refine readsBack_of_step fun fuel depth r _ hr => ?_
  obtain ⟨c, s, hs, hc⟩ := exists_write_eq n
  have hread := readNumber?_write hn hr
  rw [write]
  rw [hs, List.cons_append] at hread ⊢
  rw [readValue?_number hc, hread, Option.map_some]

theorem readsBack_text (s : String) : ReadsBack layout (.text s) := by
  refine readsBack_of_step fun fuel depth r _ _ => ?_
  change readValue? (fuel + 1) ('"' :: (s.toList.flatMap writeChar ++ ['"'] ++ r)) = _
  rw [List.append_assoc, readValue?_literal]
  change (readLiteral? (s.toList.flatMap writeChar ++ '"' :: r)).map _ = _
  rw [readLiteral?_flatMap, Option.map_some]
  rfl

theorem readsBack_array (hl : layout.Lawful) {items : List Json}
    (h : ∀ j ∈ items, ReadsBack layout j) : ReadsBack layout (.array items) := by
  refine readsBack_of_step fun fuel depth r hfuel _ => ?_
  cases items with
  | nil =>
    simp only [write, List.cons_append, List.nil_append]
    rw [readValue?, skipBlanks_cons rfl]
    simp only [skipBlanks_cons (c := ']') rfl]
  | cons j js =>
    simp only [write, List.length_cons, List.length_append] at hfuel
    simp only [write, List.cons_append, List.append_assoc, List.nil_append]
    have hrest : continuesNumber (writeItems layout (depth + 1) js ++
        (layout.gap depth ++ ']' :: r)) = false :=
      continuesNumber_writeItems (continuesNumber_append (hl.gap depth) rfl)
    rw [readValue?_array (skipBlanks_gap_write hl _ _ _), readValue?_blanks (hl.gap _),
      h j List.mem_cons_self fuel (depth + 1) _ (by omega) hrest, Option.bind_some,
      readItems?_writeItems hl (fun j hj => h j (List.mem_cons_of_mem _ hj)) (hl.gap depth)
        (by omega)]
    rfl

theorem readsBack_record (hl : layout.Lawful) {members : List (String × Json)}
    (h : ∀ m ∈ members, ReadsBack layout m.2) : ReadsBack layout (.record members) := by
  refine readsBack_of_step fun fuel depth r hfuel _ => ?_
  rw [record] at hfuel ⊢
  cases members with
  | nil =>
    simp only [List.map_nil, write, List.cons_append, List.nil_append]
    rw [readValue?, skipBlanks_cons rfl]
    simp only [skipBlanks_cons (c := '\x7d') rfl]
  | cons m ms =>
    simp only [List.map_cons, write, writeLiteral, writeText, List.length_cons,
      List.length_append] at hfuel
    simp only [List.map_cons, write, writeLiteral, List.cons_append, List.append_assoc,
      List.nil_append]
    have hrest : continuesNumber (writeMembers layout (depth + 1)
        (ms.map fun m => (some m.1, m.2)) ++ (layout.gap depth ++ '\x7d' :: r)) = false :=
      continuesNumber_writeMembers (continuesNumber_append (hl.gap depth) rfl)
    rw [readValue?_object (skipBlanks_gap_writeText hl _ _ _), readMember?_blanks (hl.gap _),
      readMember?_write hl (h m List.mem_cons_self) (by omega) hrest, Option.bind_some,
      readMembers?_writeMembers hl (fun m hm => h m (List.mem_cons_of_mem _ hm)) (hl.gap depth)
        (by omega)]
    rfl

/-- Whatever can be written is read back. -/
theorem readsBack (hl : layout.Lawful) {j : Json} (hj : j.WellSpelled) : ReadsBack layout j := by
  induction hj with
  | null =>
    refine readsBack_of_step fun fuel depth r _ _ => ?_
    rw [write, readValue?]
    simp only [List.cons_append, skipBlanks_cons (c := 'n') rfl, List.nil_append]
  | bool b =>
    refine readsBack_of_step fun fuel depth r _ _ => ?_
    cases b with
    | true =>
      rw [write, readValue?]
      simp only [List.cons_append, skipBlanks_cons (c := 't') rfl, List.nil_append]
    | false =>
      rw [write, readValue?]
      simp only [List.cons_append, skipBlanks_cons (c := 'f') rfl, List.nil_append]
  | number hn => exact readsBack_number hn
  | text s => exact readsBack_text s
  | array _ ih => exact readsBack_array hl ih
  | record _ ih => exact readsBack_record hl ih

end Write

/-- A text is parsed as the value it was written for, whatever blanks stand behind it. -/
theorem parseChars?_write_append {layout : Layout} (hl : layout.Lawful) {j : Json}
    (hj : j.WellSpelled) {g : List Char} (hg : Blank g) :
    parseChars? (j.write layout 0 ++ g) = some j := by
  have hend : continuesNumber g = false := by simpa using continuesNumber_append hg (r := []) rfl
  have hrest : skipBlanks g = [] := by
    rw [← List.append_nil g]
    exact skipBlanks_append hg []
  have hread := readsBack hl hj (2 * (j.write layout 0 ++ g).length + 2) 0 g
    (by rw [List.length_append]; omega) hend
  rw [parseChars?, hread]
  simp only [Option.bind_eq_bind, Option.bind_some, hrest]
  rfl

theorem parseChars?_write {layout : Layout} (hl : layout.Lawful) {j : Json} (hj : j.WellSpelled) :
    parseChars? (j.write layout 0) = some j := by
  simpa using parseChars?_write_append hl hj blank_nil

/-- An indented text is parsed as the value it was written for. -/
theorem parse?_pretty {j : Json} (hj : j.WellSpelled) : parse? j.pretty = some j := by
  rw [parse?, pretty, String.toList_ofList]
  exact parseChars?_write Layout.lawful_pretty hj

/-- So it is with a line feed behind it, as files end. -/
theorem parse?_pretty_newline {j : Json} (hj : j.WellSpelled) :
    parse? (j.pretty ++ "\n") = some j := by
  rw [parse?, pretty, String.toList_append, String.toList_ofList]
  exact parseChars?_write_append Layout.lawful_pretty hj (by simp [Blank, isBlank])

theorem parse?_compact {j : Json} (hj : j.WellSpelled) : parse? j.compact = some j := by
  rw [parse?, compact, String.toList_ofList]
  exact parseChars?_write Layout.lawful_compact hj

/-- The bytes of a text are parsed as the text is. -/
@[simp] theorem parseBytes?_encode (s : String) : parseBytes? (Utf8.encode s) = parse? s := by
  have hchars : (s.toList.map some).flatMap
      (fun c => c.elim illFormed fun c => [c]) = s.toList := by
    rw [List.flatMap_map]
    exact List.flatMap_singleton' s.toList
  rw [parseBytes?, Utf8.encode, Utf8.decodeFrom_encode, hchars, parse?]

/-- Bytes that are not well formed begin no value. -/
theorem readValue?_illFormed (fuel : Nat) (r : List Char) :
    readValue? fuel (illFormed ++ r) = none := by
  cases fuel <;> rfl

end Json
end Reconciler
