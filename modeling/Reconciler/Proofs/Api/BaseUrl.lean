import Mathlib.Data.List.DropRight
import Reconciler.Proofs.Api.Connecting

/-! The base URL of a host. It never begins with a blank or ends in a slash, and something stands
behind its `://`. It is a usable URL but for two kinds of hosts: where a blank stands before the
slashes at the end of the host, taking the slashes away lays it bare; and where a host is a scheme
and nothing else, taking the slashes away takes the scheme's own. -/
namespace Reconciler

namespace Text
variable {p : Char → Bool} {s t : List Char}

theorem dropEndWhile_prefix : dropEndWhile p s <+: s := List.rdropWhile_prefix p s

theorem dropEndWhile_eq_nil_iff : dropEndWhile p s = [] ↔ ∀ c ∈ s, p c = true :=
  List.rdropWhile_eq_nil_iff

theorem dropEndWhile_append_of_forall (h : ∀ c ∈ t, p c = true) :
    dropEndWhile p (s ++ t) = dropEndWhile p s := by
  rw [dropEndWhile, List.reverse_append, List.dropWhile_append_of_pos (by simpa using h),
    dropEndWhile]

theorem dropEndWhile_append_of_ne_nil (h : dropEndWhile p t ≠ []) :
    dropEndWhile p (s ++ t) = s ++ dropEndWhile p t := by
  have hkept : t.reverse.dropWhile p ≠ [] := by simpa [dropEndWhile] using h
  rw [dropEndWhile, List.reverse_append, List.dropWhile_append, if_neg (by simpa using hkept),
    List.reverse_append, List.reverse_reverse, dropEndWhile]

/-- What is left ends in a character of another class. -/
theorem getLast?_dropEndWhile : ∀ c ∈ (dropEndWhile p s).getLast?, p c = false := by
  rw [dropEndWhile, List.getLast?_reverse]
  intro c hc
  have hhead := List.head?_dropWhile_not p s.reverse
  rw [Option.mem_def.1 hc] at hhead
  exact hhead

theorem dropEndWhile_eq_self (h : ∀ c ∈ s.getLast?, p c = false) : dropEndWhile p s = s :=
  List.rdropWhile_eq_self_iff.2 fun hne => by simp [h _ (List.getLast?_eq_some_getLast hne)]

structure Unpadded (s : List Char) : Prop where
  front : ∀ c ∈ s.head?, isBlank c = false
  back : ∀ c ∈ s.getLast?, isBlank c = false

/-- Trimming leaves no blank at either end. -/
theorem unpadded_trim : Unpadded (trim s) := by
  refine ⟨fun c hc => ?_, getLast?_dropEndWhile⟩
  obtain ⟨t, ht⟩ := dropEndWhile_prefix (p := isBlank) (s := s.dropWhile isBlank)
  have hhead := List.head?_dropWhile_not isBlank s
  rw [← ht, List.head?_append_of_ne_nil _ (by rintro h; rw [trim, h] at hc; cases hc)] at hhead
  rw [← trim, Option.mem_def.1 hc] at hhead
  exact hhead

theorem dropWhile_isBlank_eq_self (h : ∀ c ∈ s.head?, isBlank c = false) :
    s.dropWhile isBlank = s := by
  cases s with
  | nil => rfl
  | cons c s => rw [List.dropWhile_cons_of_neg (by simp [h c rfl])]

/-- A text without blanks at its ends is trimmed already. -/
theorem trim_of_unpadded (h : Unpadded s) : trim s = s := by
  rw [trim, dropWhile_isBlank_eq_self h.front, dropEndWhile_eq_self h.back]

theorem trim_prefix (h : ∀ c ∈ s.head?, isBlank c = false) : trim s <+: s := by
  rw [trim, dropWhile_isBlank_eq_self h]
  exact dropEndWhile_prefix

end Text

/-- A scheme is told by its colon and slashes, wherever they stand. -/
theorem containsScheme_iff {s : List Char} : containsScheme s = true ↔ "://".toList <:+: s := by
  induction s with
  | nil => simp [containsScheme]
  | cons c s ih =>
    rw [List.infix_cons_iff, ← ih]
    by_cases h : "://".toList <+: c :: s
    · obtain ⟨rest, hrest⟩ := h
      rw [← hrest]
      simp [containsScheme]
    · rw [or_iff_right h, containsScheme]
      rintro rest rfl rfl
      exact h ⟨rest, rfl⟩

/-- The first colon ends a scheme. -/
theorem scheme_inj {a b s t : List Char} (ha : ':' ∉ a) (hb : ':' ∉ b)
    (h : a ++ ':' :: s = b ++ ':' :: t) : a = b := by
  have hfront : ∀ {a s : List Char}, ':' ∉ a → (a ++ ':' :: s).takeWhile (· ≠ ':') = a := by
    intro a s ha
    rw [List.takeWhile_append_of_pos fun c hc => by simpa using fun h : c = ':' => ha (h ▸ hc)]
    simp
  rw [← hfront ha, h, hfront hb]

theorem containsScheme_concat {scheme : List Char} (h : ':' ∉ scheme) :
    containsScheme (scheme ++ [':']) = false := by
  induction scheme with
  | nil => rfl
  | cons c scheme ih =>
    rw [List.mem_cons, not_or] at h
    rw [List.cons_append, containsScheme, ih h.2]
    exact fun _ hc => absurd hc.symm h.1

namespace ClientConfig
variable {config : ClientConfig} {url : String}

theorem bareHost_prefix : config.bareHost <+: Text.trim config.host.toList :=
  Text.dropEndWhile_prefix

theorem bareHost_eq_nil_iff :
    config.bareHost = [] ↔ ∀ c ∈ Text.trim config.host.toList, c = '/' := by
  simp [bareHost, Text.dropEndWhile_eq_nil_iff]

theorem getLast?_bareHost : config.bareHost.getLast? ≠ some '/' := by
  intro h
  simpa using Text.getLast?_dropEndWhile '/' h

/-- Without a host there is no base URL, and nothing else goes wrong. -/
theorem baseUrl_eq_error_iff {e : ApiError} : config.baseUrl = .error e ↔
    e = .configuration "host is required" ∧ config.bareHost = [] := by
  by_cases h : config.bareHost = []
  · rw [baseUrl_of_bareHost_eq_nil h, Except.error.injEq, eq_comm]
    exact (and_iff_left h).symm
  · obtain ⟨base, hbase⟩ := exists_baseUrl h
    exact iff_of_false (by simp [hbase]) fun hc => h hc.2

/-- The base URL is what is left of the host, under a scheme of its own or `https`. -/
theorem baseUrl_eq_ok_iff : config.baseUrl = .ok url ↔ config.bareHost ≠ [] ∧
    ("://".toList <:+: config.bareHost ∧ url.toList = config.bareHost ∨
      ¬"://".toList <:+: config.bareHost ∧ url.toList = "https://".toList ++ config.bareHost) := by
  by_cases h : config.bareHost = []
  · rw [baseUrl_of_bareHost_eq_nil h]
    exact iff_of_false nofun fun hc => hc.1 h
  · have hbase : config.baseUrl = if containsScheme config.bareHost then
        .ok (.ofList config.bareHost) else .ok ("https://" ++ .ofList config.bareHost) := by
      unfold bareHost at h ⊢
      simp only [baseUrl, List.isEmpty_iff, if_neg h]
    rw [hbase, and_iff_right h, ← containsScheme_iff]
    split
    · next hscheme =>
      rw [Except.ok.injEq, ← String.toList_inj, String.toList_ofList, eq_comm]
      simp [hscheme]
    · next hscheme =>
      rw [Except.ok.injEq, ← String.toList_inj, String.toList_append, String.toList_ofList, eq_comm]
      simp [hscheme]

structure Usable (config : ClientConfig) (url : String) : Prop where
  unpadded : Text.Unpadded url.toList
  back : url.toList.getLast? ≠ some '/'
  authority : ∃ scheme rest, rest ≠ [] ∧ url.toList = scheme ++ "://".toList ++ rest
  /-- The scheme that a host is written with stays. -/
  scheme : ∀ scheme rest, ':' ∉ scheme →
    Text.trim config.host.toList = scheme ++ "://".toList ++ rest →
    scheme ++ "://".toList <+: url.toList
  fixed : { config with host := url }.baseUrl = .ok url

/-- The host has a blank before the slashes at its end. -/
def ExposesBlank (config : ClientConfig) : Prop :=
  ∃ front c slashes, Text.isBlank c = true ∧ (∀ d ∈ slashes, d = '/') ∧
    Text.trim config.host.toList = front ++ c :: slashes

/-- The host is a scheme with nothing but slashes behind it, and not the one that hosts without a
scheme are given. -/
def OnlyScheme (config : ClientConfig) : Prop :=
  ∃ scheme slashes, ':' ∉ scheme ∧ scheme ≠ "https".toList ∧ (∀ d ∈ slashes, d = '/') ∧
    Text.trim config.host.toList = scheme ++ "://".toList ++ slashes

section Ok
variable (h : config.baseUrl = .ok url)
include h

theorem getLast?_baseUrl : url.toList.getLast? = config.bareHost.getLast? := by
  obtain ⟨hne, ⟨-, hurl⟩ | ⟨-, hurl⟩⟩ := baseUrl_eq_ok_iff.1 h
  · rw [hurl]
  · rw [hurl, List.getLast?_append_of_ne_nil _ hne]

theorem head?_baseUrl : ∀ c ∈ url.toList.head?, Text.isBlank c = false := by
  obtain ⟨hne, ⟨-, hurl⟩ | ⟨-, hurl⟩⟩ := baseUrl_eq_ok_iff.1 h
  · obtain ⟨slashes, hslashes⟩ : config.bareHost <+: Text.trim config.host.toList := bareHost_prefix
    intro c hc
    refine (Text.unpadded_trim (s := config.host.toList)).front c ?_
    rwa [← hslashes, List.head?_append_of_ne_nil _ hne, ← hurl]
  · rw [hurl]
    intro c hc
    cases hc
    decide

/-- Something follows the scheme. -/
theorem authority_baseUrl :
    ∃ scheme rest, rest ≠ [] ∧ url.toList = scheme ++ "://".toList ++ rest := by
  obtain ⟨hne, ⟨⟨scheme, rest, hrest⟩, hurl⟩ | ⟨-, hurl⟩⟩ := baseUrl_eq_ok_iff.1 h
  · refine ⟨scheme, rest, ?_, hurl.trans hrest.symm⟩
    rintro rfl
    have hlast : config.bareHost.getLast? ≠ some '/' := getLast?_bareHost
    apply hlast
    rw [← hrest, List.append_nil]
    exact List.getLast?_append_of_ne_nil _ (by decide)
  · exact ⟨"https".toList, config.bareHost, hne, hurl⟩

end Ok

theorem exposesBlank_iff :
    config.ExposesBlank ↔ ∃ c ∈ config.bareHost.getLast?, Text.isBlank c = true := by
  constructor
  · rintro ⟨front, c, slashes, hblank, hslashes, hhost⟩
    have hslash : (c == '/') = false := by
      rw [beq_eq_false_iff_ne]
      rintro rfl
      exact absurd hblank (by decide)
    have hbare : config.bareHost = front ++ [c] := by
      rw [bareHost, hhost, List.append_cons,
        Text.dropEndWhile_append_of_forall (by simpa using hslashes)]
      exact Text.dropEndWhile_eq_self (by simpa using hslash)
    exact ⟨c, by simp [hbare], hblank⟩
  · rintro ⟨c, hc, hblank⟩
    obtain ⟨front, hfront⟩ := List.getLast?_eq_some_iff.1 hc
    refine ⟨front, c, (Text.trim config.host.toList).rtakeWhile (· == '/'), hblank, ?_, ?_⟩
    · exact fun d hd => by simpa using List.mem_rtakeWhile_imp hd
    · rw [List.append_cons, ← hfront]
      exact List.rdropWhile_append_rtakeWhile.symm

section Ok
variable (h : config.baseUrl = .ok url)
include h

/-- A blank is left at the end just if the host has one before its last slashes. -/
theorem unpadded_iff : Text.Unpadded url.toList ↔ ¬config.ExposesBlank := by
  rw [exposesBlank_iff, ← getLast?_baseUrl h]
  simp only [not_exists, not_and, Bool.not_eq_true]
  exact ⟨Text.Unpadded.back, fun hback => ⟨head?_baseUrl h, hback⟩⟩

/-- Normalising once is enough just where no blank is laid bare. -/
theorem fixed_iff : { config with host := url }.baseUrl = .ok url ↔ ¬config.ExposesBlank := by
  rw [← unpadded_iff h, baseUrl_eq_ok_iff]
  have hfront := head?_baseUrl h
  constructor
  · have hbare : { config with host := url }.bareHost <+: url.toList :=
      bareHost_prefix.trans (Text.trim_prefix hfront)
    rintro ⟨hne, ⟨-, hurl⟩ | ⟨hscheme, hurl⟩⟩
    · have htrim : Text.trim url.toList = url.toList := by
        refine (Text.trim_prefix hfront).eq_of_length_le ?_
        rw [congrArg List.length hurl]
        exact bareHost_prefix.length_le
      exact htrim ▸ Text.unpadded_trim
    · -- a host that is a beginning of its URL under `https` is one of `https` itself
      rcases List.prefix_or_prefix_of_prefix hbare ⟨_, hurl.symm⟩ with hhttps | hhttps
      · refine ⟨hfront, fun c hc => ?_⟩
        rw [hurl, List.getLast?_append_of_ne_nil _ hne] at hc
        have hblanks : ("https://".toList.all fun c => !Text.isBlank c) = true := by decide
        simpa using List.all_eq_true.1 hblanks c (hhttps.subset (List.mem_of_getLast? hc))
      · exact absurd ((List.IsSuffix.isInfix ⟨"https".toList, rfl⟩).trans hhttps.isInfix) hscheme
  · intro hunpadded
    obtain ⟨scheme, rest, -, hurl⟩ := authority_baseUrl h
    have hbare : { config with host := url }.bareHost = url.toList := by
      rw [bareHost, Text.trim_of_unpadded hunpadded]
      refine Text.dropEndWhile_eq_self fun c hc => ?_
      rw [getLast?_baseUrl h] at hc
      exact beq_eq_false_iff_ne.2 fun hslash => getLast?_bareHost (hslash ▸ hc)
    rw [hbare]
    refine ⟨?_, .inl ⟨⟨scheme, rest, hurl.symm⟩, rfl⟩⟩
    rw [hurl]
    simp

/-- The scheme that a host is written with is lost where only slashes stand behind it. -/
theorem scheme_prefix_iff {scheme rest : List Char} (hscheme : ':' ∉ scheme)
    (hhost : Text.trim config.host.toList = scheme ++ "://".toList ++ rest) :
    scheme ++ "://".toList <+: url.toList ↔ scheme = "https".toList ∨ ∃ c ∈ rest, c ≠ '/' := by
  have hurl := (baseUrl_eq_ok_iff.1 h).2
  by_cases hrest : ∃ c ∈ rest, c ≠ '/'
  · have hbare : config.bareHost =
        scheme ++ "://".toList ++ Text.dropEndWhile (· == '/') rest := by
      rw [bareHost, hhost, Text.dropEndWhile_append_of_ne_nil]
      simpa [Text.dropEndWhile_eq_nil_iff] using hrest
    have hmarker : "://".toList <:+: config.bareHost := ⟨scheme, _, hbare.symm⟩
    rw [(hurl.resolve_right fun hother => hother.1 hmarker).2, hbare]
    exact iff_of_true (List.prefix_append ..) (.inr hrest)
  · have hbare : config.bareHost = scheme ++ [':'] := by
      have hslashes : ∀ c ∈ '/' :: '/' :: rest, (c == '/') = true := by simpa using hrest
      rw [bareHost, hhost, show scheme ++ "://".toList ++ rest =
        scheme ++ [':'] ++ '/' :: '/' :: rest by simp, Text.dropEndWhile_append_of_forall hslashes]
      exact Text.dropEndWhile_eq_self (by simp)
    have hnone : ¬"://".toList <:+: config.bareHost := by
      rw [← containsScheme_iff, hbare, containsScheme_concat hscheme]
      exact Bool.false_ne_true
    rw [(hurl.resolve_left fun hother => hnone hother.1).2, hbare, or_iff_left hrest]
    constructor
    · rintro ⟨tail, htail⟩
      refine scheme_inj hscheme (by decide) (s := '/' :: '/' :: tail)
        (t := '/' :: '/' :: (scheme ++ [':'])) ?_
      simpa using htail
    · rintro rfl
      exact ⟨_, rfl⟩

theorem keepsScheme_iff : (∀ scheme rest, ':' ∉ scheme →
    Text.trim config.host.toList = scheme ++ "://".toList ++ rest →
    scheme ++ "://".toList <+: url.toList) ↔ ¬config.OnlyScheme := by
  constructor
  · rintro hkeeps ⟨scheme, slashes, hscheme, hhttps, hslashes, hhost⟩
    rcases (scheme_prefix_iff h hscheme hhost).1 (hkeeps scheme slashes hscheme hhost) with
      hsame | ⟨c, hc, hother⟩
    · exact hhttps hsame
    · exact hother (hslashes c hc)
  · intro honly scheme rest hscheme hhost
    rw [scheme_prefix_iff h hscheme hhost]
    by_contra hlost
    rw [not_or, not_exists] at hlost
    exact honly ⟨scheme, rest, hscheme, hlost.1,
      fun c hc => by_contra fun hother => hlost.2 c ⟨hc, hother⟩, hhost⟩

end Ok

/-- A host has no base URL when it is nothing but slashes. Any other has one, which begins and ends
as a URL should and names a place, and which serves as the base URL of the host unless the slashes
at the host's end were all that kept a blank from its end, or belonged to its scheme. -/
theorem baseUrl_usable_iff (config : ClientConfig) :
    (∀ e, config.baseUrl = .error e ↔ e = .configuration "host is required" ∧
      ∀ c ∈ Text.trim config.host.toList, c = '/') ∧
    ∀ url, config.baseUrl = .ok url →
      (∀ c ∈ url.toList.head?, Text.isBlank c = false) ∧ url.toList.getLast? ≠ some '/' ∧
      (∃ scheme rest, rest ≠ [] ∧ url.toList = scheme ++ "://".toList ++ rest) ∧
      (config.Usable url ↔ ¬config.ExposesBlank ∧ ¬config.OnlyScheme) := by
  refine ⟨fun e => ?_, fun url h => ?_⟩
  · rw [baseUrl_eq_error_iff, bareHost_eq_nil_iff]
  · have hback : url.toList.getLast? ≠ some '/' := by
      rw [getLast?_baseUrl h]
      exact getLast?_bareHost
    refine ⟨head?_baseUrl h, hback, authority_baseUrl h, ?_⟩
    rw [← fixed_iff h, ← keepsScheme_iff h]
    constructor
    · exact fun husable => ⟨husable.fixed, husable.scheme⟩
    · rintro ⟨hfixed, hscheme⟩
      exact ⟨(unpadded_iff h).2 ((fixed_iff h).1 hfixed), hback, authority_baseUrl h, hscheme,
        hfixed⟩

private def hosted (host : String) : ClientConfig := ⟨host, some "tok", none, none, none, none⟩

/-- A local host with its scheme, blanks around it and slashes behind it. -/
theorem baseUrl_usable_iff_local :
    (hosted " http://127.0.0.1:8080// ").baseUrl = .ok "http://127.0.0.1:8080" ∧
    (hosted " http://127.0.0.1:8080// ").Usable "http://127.0.0.1:8080" := by
  have hbase : (hosted " http://127.0.0.1:8080// ").baseUrl = .ok "http://127.0.0.1:8080" := by
    decide
  refine ⟨hbase, (((baseUrl_usable_iff _).2 _ hbase).2.2.2).2 ⟨?_, ?_⟩⟩
  · have hlast : (hosted " http://127.0.0.1:8080// ").bareHost.getLast? = some '0' := by decide
    rw [exposesBlank_iff, hlast]
    rintro ⟨_, ⟨⟩, hblank⟩
    exact absurd hblank (by decide)
  · rintro ⟨scheme, slashes, hscheme, -, hslashes, hhost⟩
    have htrim : "http".toList ++ "://".toList ++ "127.0.0.1:8080//".toList =
      scheme ++ "://".toList ++ slashes := hhost
    obtain rfl : "http".toList = scheme := by
      refine scheme_inj (by decide) hscheme (s := "//127.0.0.1:8080//".toList)
        (t := '/' :: '/' :: slashes) ?_
      simpa using htrim
    obtain rfl : "127.0.0.1:8080//".toList = slashes := List.append_cancel_left htrim
    exact absurd (hslashes '1' (by decide)) (by decide)

/-- Slashes behind a blank, and a scheme on its own. -/
theorem not_baseUrl_usable :
    ((hosted "api.test /").baseUrl = .ok "https://api.test " ∧
      ¬(hosted "api.test /").Usable "https://api.test ") ∧
    (hosted "http://").baseUrl = .ok "https://http:" ∧
      ¬(hosted "http://").Usable "https://http:" := by
  refine ⟨⟨by decide, fun h => ?_⟩, by decide, fun h => ?_⟩
  · exact absurd (h.unpadded.back ' ' (by decide)) (by decide)
  · exact absurd (h.scheme "http".toList [] (by decide) (by decide)) (by decide)

end ClientConfig
end Reconciler
