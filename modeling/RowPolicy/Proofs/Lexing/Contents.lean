import Mathlib.Algebra.Group.Nat.Defs
import Mathlib.Logic.Equiv.Basic
import RowPolicy.Proofs.Lexing.Readings

/-!
# Contents and what is printed for them

The content of a string or of a quoted name is printed in one of a few ways: as it is, with its
quotes doubled, with escapes, or between texts that must not stand in it. For each way there is a
predicate that says which contents are read back, and both directions are proved: such a content is
read back wherever it stands, and any other is read as something else.

Quotes other than the single one are reduced to it by exchanging the two characters, since reading
and printing treat all quotes alike (`scanQuoted_map`, `quoteContent_map`).
-/

namespace RowPolicy.Sql

/-! ## Contents written as they are -/

/-- Whether a content that is written as it is between quotes `q` is read back: no quote stands in
it, and all backslashes stand for themselves. -/
def keepsContent (q : Char) (escapes wildcards : Bool) : List Char → Bool
  | [] => true
  | c :: rest =>
    c != q &&
      (c != '\\' || !escapes || wildcards && (rest.head? == some '%' || rest.head? == some '_')) &&
      keepsContent q escapes wildcards rest

section Content

variable {q c : Char} {escapes wildcards : Bool} {s r rest : List Char}

/-- The closing quote is read too, so less is read than stands there. -/
theorem length_lt_of_scanQuoted {cs : List Char}
    (h : scanQuoted q escapes wildcards cs = .ok (s, r)) : s.length < cs.length := by
  fun_induction scanQuoted generalizing s r with
  | case1 => cases h
  | case2 c _ c' rest _ ih =>
    obtain ⟨s', hs', rfl⟩ := Scanned.after_eq_ok.mp h
    have := ih hs'
    simp only [List.singleton_append, List.length_cons]
    omega
  | case3 c rest =>
    cases h
    simp
  | case4 c =>
    cases h
    simp
  | case5 => cases h
  | case6 c _ _ n rest ih =>
    obtain ⟨s', hs', rfl⟩ := Scanned.after_eq_ok.mp h
    have := ih hs'
    split <;> simp only [List.cons_append, List.nil_append, List.length_cons] <;> omega
  | case7 c rest _ _ ih =>
    obtain ⟨s', hs', rfl⟩ := Scanned.after_eq_ok.mp h
    have := ih hs'
    simp only [List.singleton_append, List.length_cons]
    omega

theorem scanQuoted_plain (hq : c ≠ q) (hb : c ≠ '\\' ∨ escapes = false) :
    scanQuoted q escapes wildcards (c :: rest) =
      (scanQuoted q escapes wildcards rest).after [c] := by
  have hc : (c == '\\' && escapes) = false := by
    rcases hb with h | h <;> simp [h]
  rw [scanQuoted.eq_def]
  simp [hq, hc]

theorem scanQuoted_end (h : rest.head? ≠ some q) :
    scanQuoted q escapes wildcards (q :: rest) = .ok ([], rest) := by
  cases rest with
  | nil => simp [scanQuoted]
  | cons c rest =>
    have hc : c ≠ q := by simpa using h
    simp [scanQuoted, hc]

theorem scanQuoted_backslash (hq : q ≠ '\\') (he : escapes = true) (n : Char) :
    scanQuoted q escapes wildcards ('\\' :: n :: rest) =
      (scanQuoted q escapes wildcards rest).after
        (if wildcards && (n == '%' || n == '_') then ['\\', n] else [escapedChar n]) := by
  rw [scanQuoted]
  simp [hq.symm, he]

/-- A content that keeps is read up to its closing quote. -/
theorem scanQuoted_of_keepsContent (hq : q ∉ ['\\', '%', '_']) (hrest : rest.head? ≠ some q)
    {content : List Char} (h : keepsContent q escapes wildcards content = true) :
    scanQuoted q escapes wildcards (content ++ q :: rest) = .ok (content, rest) := by
  simp only [List.mem_cons, List.not_mem_nil, or_false, not_or] at hq
  match content, h with
  | [], _ => exact scanQuoted_end hrest
  | c :: content, h =>
    simp only [keepsContent, Bool.and_eq_true, Bool.or_eq_true, bne_iff_ne, beq_iff_eq,
      Bool.not_eq_true'] at h
    obtain ⟨⟨hcq, hslash⟩, hkeeps⟩ := h
    by_cases hplain : c ≠ '\\' ∨ escapes = false
    · rw [List.cons_append, scanQuoted_plain hcq hplain,
        scanQuoted_of_keepsContent (by simp [hq]) hrest hkeeps]
      rfl
    · -- the wildcard behind the backslash is read together with it
      obtain ⟨hb, he⟩ : c = '\\' ∧ escapes = true := by simpa using hplain
      obtain ⟨hw, hwild⟩ := hslash.resolve_left hplain
      subst hb
      cases content with
      | nil => simp at hwild
      | cons n content =>
        have hn : (wildcards && (n == '%' || n == '_')) = true := by simpa [hw] using hwild
        rw [keepsContent, Bool.and_eq_true] at hkeeps
        rw [List.cons_append, List.cons_append, scanQuoted_backslash hq.1 he,
          scanQuoted_of_keepsContent (by simp [hq]) hrest hkeeps.2, if_pos hn]
        rfl
termination_by content.length

/-- Any other content is read as another one. -/
theorem keepsContent_of_scanQuoted (hq : q ∉ ['\\', '%', '_']) {content : List Char}
    (h : scanQuoted q escapes wildcards (content ++ [q]) = .ok (content, r)) :
    keepsContent q escapes wildcards content = true := by
  simp only [List.mem_cons, List.not_mem_nil, or_false, not_or] at hq
  match content, h with
  | [], _ => rfl
  | c :: content, h =>
    by_cases hcq : c = q
    · subst hcq
      by_cases hnext : (content ++ [c]).head? = some c
      · obtain ⟨cs, hcs⟩ : ∃ cs, content ++ [c] = c :: cs := by
          cases hcs : content ++ [c] with
          | nil => simp [hcs] at hnext
          | cons c' cs => exact ⟨cs, by simpa [hcs] using hnext⟩
        have hdouble : scanQuoted c escapes wildcards (c :: c :: cs) =
            (scanQuoted c escapes wildcards cs).after [c] := by
          rw [scanQuoted]
          simp
        rw [List.cons_append, hcs, hdouble] at h
        obtain ⟨s, hs, heq⟩ := Scanned.after_eq_ok.mp h
        obtain rfl : content = s := by simpa using heq
        have hlt := length_lt_of_scanQuoted hs
        have hlen := congrArg List.length hcs
        simp only [List.length_append, List.length_cons, List.length_nil] at hlen
        omega
      · rw [List.cons_append, scanQuoted_end hnext] at h
        simp at h
    · by_cases hplain : c ≠ '\\' ∨ escapes = false
      · rw [List.cons_append, scanQuoted_plain hcq hplain] at h
        obtain ⟨s, hs, heq⟩ := Scanned.after_eq_ok.mp h
        obtain rfl : content = s := by simpa using heq
        have hkeeps := keepsContent_of_scanQuoted (by simp [hq]) hs
        rcases hplain with hb | he
        · simp [keepsContent, hcq, hb, hkeeps]
        · simp [keepsContent, hcq, he ▸ hkeeps, he]
      · obtain ⟨hb, he⟩ : c = '\\' ∧ escapes = true := by simpa using hplain
        subst hb
        cases content with
        | nil =>
          rw [List.singleton_append, scanQuoted_backslash hq.1 he] at h
          obtain ⟨s, hs, -⟩ := Scanned.after_eq_ok.mp h
          simp [scanQuoted] at hs
        | cons n content =>
          rw [List.cons_append, List.cons_append, scanQuoted_backslash hq.1 he] at h
          obtain ⟨s, hs, heq⟩ := Scanned.after_eq_ok.mp h
          split at heq
          · rename_i hwild
            obtain rfl : content = s := by simpa using heq
            have hkeeps := keepsContent_of_scanQuoted (by simp [hq]) hs
            simp only [Bool.and_eq_true, Bool.or_eq_true, beq_iff_eq] at hwild
            obtain ⟨rfl, rfl | rfl⟩ := hwild <;>
              simp [keepsContent, Ne.symm hq.1, Ne.symm hq.2.1, Ne.symm hq.2.2, hkeeps]
          · have hlt := length_lt_of_scanQuoted hs
            have hlen := congrArg List.length heq
            simp only [List.length_append, List.length_cons, List.length_nil] at hlen hlt
            omega
termination_by content.length

end Content

/-! ## Contents whose quotes are doubled -/

/-- Whether a content is read back from what is written for it between quotes `q`, as `readsBack`
says it of a single quote. -/
def readsBackIn (q : Char) (escapes wildcards : Bool) : List Char → Bool
  | [] => true
  | c :: rest =>
    (c != q || rest.head? != some q) &&
      (c != '\\' || if escapes then wildcards && (rest.head? == some '%' || rest.head? == some '_')
        else rest.head? != some q) &&
      readsBackIn q escapes wildcards rest

/-- The quotes of strings and names that are written with their quotes doubled. -/
def doubledQuotes : List Char :=
  ['\'', '"', '`']

/-- A character with the quote `q` and the single quote exchanged. -/
abbrev asSingle (q : Char) : Char ≃ Char :=
  Equiv.swap '\'' q

section Exchange

variable {q : Char} {escapes wildcards : Bool}

theorem asSingle_of_ne {q c : Char} (hc : c ≠ '\'') (hq : c ≠ q) : asSingle q c = c :=
  Equiv.swap_apply_of_ne_of_ne hc hq

theorem asSingle_eq_iff {c x : Char} (hx : x ≠ '\'') (hq : x ≠ q) : asSingle q c = x ↔ c = x := by
  rw [← Equiv.eq_symm_apply, Equiv.symm_swap, asSingle_of_ne hx hq]

theorem asSingle_eq_single_iff {c : Char} : asSingle q c = '\'' ↔ c = q := by
  rw [← Equiv.eq_symm_apply, Equiv.symm_swap, Equiv.swap_apply_left]

theorem escapedChar_asSingle (hq : q ∈ doubledQuotes) (c : Char) :
    escapedChar (asSingle q c) = asSingle q (escapedChar c) := by
  by_cases hc : c = '\''
  · subst hc
    simp only [doubledQuotes, List.mem_cons, List.not_mem_nil, or_false] at hq
    obtain rfl | rfl | rfl := hq <;> decide
  · by_cases hcq : c = q
    · subst hcq
      simp only [doubledQuotes, List.mem_cons, List.not_mem_nil, or_false] at hq
      obtain rfl | rfl | rfl := hq <;> decide
    · rw [asSingle_of_ne hc hcq]
      symm
      apply asSingle_of_ne
      · unfold escapedChar
        split <;> first | decide | exact hc
      · simp only [doubledQuotes, List.mem_cons, List.not_mem_nil, or_false] at hq
        unfold escapedChar
        split <;> first | exact hcq | obtain rfl | rfl | rfl := hq <;> decide

theorem ne_of_mem_doubledQuotes (hq : q ∈ doubledQuotes) :
    q ≠ '\\' ∧ q ≠ '%' ∧ q ≠ '_' ∧ q ≠ '[' := by
  simp only [doubledQuotes, List.mem_cons, List.not_mem_nil, or_false] at hq
  obtain rfl | rfl | rfl := hq <;> decide

theorem asSingle_beq_single (c : Char) : (asSingle q c == '\'') = (c == q) := by
  rw [Bool.eq_iff_iff, beq_iff_eq, beq_iff_eq, asSingle_eq_single_iff]

theorem asSingle_beq {x : Char} (hq : q ∈ doubledQuotes) (hx : x ∈ ['\\', '%', '_']) (c : Char) :
    (asSingle q c == x) = (c == x) := by
  obtain ⟨hslash, hpercent, hlow, -⟩ := ne_of_mem_doubledQuotes hq
  rw [Bool.eq_iff_iff, beq_iff_eq, beq_iff_eq]
  simp only [List.mem_cons, List.not_mem_nil, or_false] at hx
  obtain rfl | rfl | rfl := hx
  · exact asSingle_eq_iff (by decide) hslash.symm
  · exact asSingle_eq_iff (by decide) hpercent.symm
  · exact asSingle_eq_iff (by decide) hlow.symm

theorem readsBackIn_eq (hq : q ∈ doubledQuotes) (content : List Char) :
    readsBackIn q escapes wildcards content =
      readsBack escapes wildcards (content.map (asSingle q)) := by
  induction content with
  | nil => rfl
  | cons c rest ih =>
    have hslash := asSingle_beq hq (x := '\\') (by simp) c
    have hhead : ((rest.map (asSingle q)).head? == some '\'') = (rest.head? == some q) := by
      cases rest <;> simp [asSingle_beq_single]
    have hwild : ∀ x ∈ ['%', '_'],
        ((rest.map (asSingle q)).head? == some x) = (rest.head? == some x) := by
      intro x hx
      cases rest <;> simp [asSingle_beq hq (List.mem_cons_of_mem _ hx)]
    simp only [List.map_cons, readsBack, readsBackIn, keepsBackslash, ih, hhead,
      hwild '%' (by simp), hwild '_' (by simp), bne, asSingle_beq_single, hslash]

/-- Text between quotes `q` is written like text between single quotes. -/
theorem quoteContent_map (hq : q ∈ doubledQuotes) (escaped : Bool) (content : List Char) :
    quoteContent '\'' escaped (content.map (asSingle q)) =
      (quoteContent q escaped content).map (asSingle q) := by
  have hslash := asSingle_beq hq (x := '\\') (by simp)
  fun_induction quoteContent q escaped content with
  | case1 => rfl
  | case2 c rest hc ih =>
    rw [List.map_cons, quoteContent.eq_def]
    simp [asSingle_beq_single, hc, ih]
  | case3 escaped c hc he => simp [quoteContent, asSingle_beq_single, hc, he]
  | case4 escaped c hc he c' rest hc' ih =>
    simp [quoteContent, asSingle_beq_single, hc, he, hc', ih]
  | case5 escaped c hc he c' rest hc' ih =>
    rw [List.map_cons, List.map_cons, quoteContent]
    simp [asSingle_beq_single, hc, he, hc', ← ih]
  | case6 escaped c rest hc ih =>
    rw [List.map_cons, quoteContent.eq_def]
    simp [asSingle_beq_single, hc, hslash, ih]

/-- The reading with its characters exchanged. -/
def Scanned.mapChars (f : Char → Char) (t : Scanned (List Char)) : Scanned (List Char) :=
  t.map fun (s, r) => (s.map f, r.map f)

theorem Scanned.mapChars_after (f : Char → Char) (front : List Char) (t : Scanned (List Char)) :
    (t.after front).mapChars f = (t.mapChars f).after (front.map f) := by
  cases t <;> simp [Scanned.after, Scanned.mapChars, Except.map]

/-- Text between quotes `q` is read like text between single quotes. -/
theorem scanQuoted_map (hq : q ∈ doubledQuotes) (cs : List Char) :
    scanQuoted '\'' escapes wildcards (cs.map (asSingle q)) =
      (scanQuoted q escapes wildcards cs).mapChars (asSingle q) := by
  have hquote : asSingle q q = '\'' := asSingle_eq_single_iff.mpr rfl
  have hslash := asSingle_beq hq (x := '\\') (by simp)
  fun_induction scanQuoted q escapes wildcards cs with
  | case1 => rfl
  | case2 c hc c' rest hc' ih =>
    simp [scanQuoted, asSingle_beq_single, hc, hc', ih, Scanned.mapChars_after, hquote]
  | case3 c hc c' rest hc' =>
    simp [scanQuoted, asSingle_beq_single, hc, hc', Scanned.mapChars, Except.map]
  | case4 c hc => simp [scanQuoted, asSingle_beq_single, hc, Scanned.mapChars, Except.map]
  | case5 c hc he =>
    simp [scanQuoted, asSingle_beq_single, hc, hslash, he, Scanned.mapChars, Except.map]
  | case6 c hc he n rest ih =>
    have hpercent := asSingle_beq hq (x := '%') (by simp) n
    have hlow := asSingle_beq hq (x := '_') (by simp) n
    have hfront : (if wildcards && (n == '%' || n == '_') then [c, n] else [escapedChar n]).map
          (asSingle q) =
        if wildcards && (n == '%' || n == '_') then [asSingle q c, asSingle q n]
        else [escapedChar (asSingle q n)] := by
      rw [escapedChar_asSingle hq]
      split <;> rfl
    rw [List.map_cons, List.map_cons, scanQuoted, asSingle_beq_single, hslash, if_neg hc, if_pos he,
      ih, hpercent, hlow, Scanned.mapChars_after, hfront]
  | case7 c rest hc he ih =>
    rw [List.map_cons, scanQuoted.eq_def]
    simp [asSingle_beq_single, hc, hslash, he, ih, Scanned.mapChars_after]

theorem Scanned.mapChars_eq_ok_iff {f : Char → Char} (hf : Function.Injective f)
    {t : Scanned (List Char)} {s r : List Char} :
    t.mapChars f = .ok (s.map f, r.map f) ↔ t = .ok (s, r) := by
  cases t with
  | error e => simp [Scanned.mapChars, Except.map]
  | ok a => simp [Scanned.mapChars, Except.map, Prod.ext_iff, List.map_inj_right hf]

theorem scanQuoted_asSingle_iff (hq : q ∈ doubledQuotes) {content rest s r : List Char} :
    scanQuoted q escapes wildcards (quoteContent q false content ++ q :: rest) = .ok (s, r) ↔
      scanQuoted '\'' escapes wildcards (quoteContent '\'' false (content.map (asSingle q)) ++
        '\'' :: rest.map (asSingle q)) = .ok (s.map (asSingle q), r.map (asSingle q)) := by
  have hquote : asSingle q q = '\'' := asSingle_eq_single_iff.mpr rfl
  have hwritten : quoteContent '\'' false (content.map (asSingle q)) ++
      '\'' :: rest.map (asSingle q) =
        (quoteContent q false content ++ q :: rest).map (asSingle q) := by
    rw [quoteContent_map hq, List.map_append, List.map_cons, hquote]
  rw [hwritten, scanQuoted_map hq, Scanned.mapChars_eq_ok_iff (asSingle q).injective]

/-- What stands between quotes is read back if the content is one that is read back. -/
theorem scanQuoted_of_readsBackIn (hq : q ∈ doubledQuotes) {content rest : List Char}
    (h : readsBackIn q escapes wildcards content = true) (hrest : rest.head? ≠ some q) :
    scanQuoted q escapes wildcards (quoteContent q false content ++ q :: rest) =
      .ok (content, rest) := by
  have hrest' : (rest.map (asSingle q)).head? ≠ some '\'' := by
    cases rest with
    | nil => simp
    | cons c rest => simpa [asSingle_eq_single_iff] using hrest
  rw [scanQuoted_asSingle_iff hq]
  exact scanQuoted_quoteContent (readsBackIn_eq hq content ▸ h) hrest' false (by simp)

theorem readsBackIn_of_scanQuoted (hq : q ∈ doubledQuotes) {content r : List Char}
    (h : scanQuoted q escapes wildcards (quoteContent q false content ++ [q]) =
      .ok (content, r)) : readsBackIn q escapes wildcards content = true := by
  rw [scanQuoted_asSingle_iff hq] at h
  rw [readsBackIn_eq hq]
  exact scanQuoted_quoteContent_iff.mp ⟨_, h⟩

end Exchange

/-! ## Contents that a text ends -/

/-- Whether a text `stop` behind a content ends it, and no part of the two does so earlier. -/
def closesAtEnd (stop : List Char) : List Char → Bool
  | [] => true
  | c :: rest => !stop.isPrefixOf (c :: (rest ++ stop)) && closesAtEnd stop rest

theorem splitAtText_of_closesAtEnd {stop content : List Char} (hstop : stop ≠ [])
    (h : closesAtEnd stop content = true) :
    splitAtText stop (content ++ stop) = some (content, []) := by
  induction content with
  | nil =>
    obtain ⟨c, rest, rfl⟩ := List.exists_cons_of_ne_nil hstop
    rw [List.nil_append, splitAtText, if_pos (by simp)]
    simp
  | cons c content ih =>
    rw [closesAtEnd, Bool.and_eq_true, Bool.not_eq_true'] at h
    rw [List.cons_append, splitAtText, h.1, if_neg (by simp), ih h.2]
    rfl

theorem closesAtEnd_of_splitAtText {stop content r : List Char}
    (h : splitAtText stop (content ++ stop) = some (content, r)) :
    closesAtEnd stop content = true := by
  induction content with
  | nil => rfl
  | cons c content ih =>
    rw [List.cons_append, splitAtText] at h
    split at h
    · cases h
    · rename_i hprefix
      obtain ⟨⟨s, r'⟩, hs, heq⟩ := Option.map_eq_some_iff.mp h
      cases heq
      rw [closesAtEnd, ih hs, Bool.and_true, Bool.not_eq_true']
      exact Bool.not_eq_true _ ▸ hprefix

/-- The reading that a split is. -/
def Scanned.ofSplit : Option (List Char × List Char) → Scanned (List Char)
  | none => .error (.unterminated "string")
  | some a => .ok a

theorem Scanned.ofSplit_map (front : List Char) (a : Option (List Char × List Char)) :
    ofSplit (a.map fun (s, r) => (front ++ s, r)) = (ofSplit a).after front := by
  cases a <;> rfl

/-- Fewer than three quotes in a row end nothing. -/
theorem splitAtText_replicate {q c : Char} (hc : c ≠ q) {run : Nat} (hrun : run ≤ 2)
    (rest : List Char) :
    splitAtText [q, q, q] (List.replicate run q ++ c :: rest) =
      (splitAtText [q, q, q] rest).map fun (s, r) => (List.replicate run q ++ [c] ++ s, r) := by
  obtain rfl | rfl | rfl : run = 0 ∨ run = 1 ∨ run = 2 := by omega
  · simp [splitAtText, hc.symm]
  · simp [splitAtText, hc.symm, Function.comp_def]
  · simp [List.replicate_succ, splitAtText, hc.symm, Function.comp_def]

/-- Three quotes in a row end the content, also where the first ones are seen already. -/
theorem scanTriple_eq {q : Char} {run : Nat} (hrun : run ≤ 2) (cs : List Char) :
    scanTriple q run cs = .ofSplit (splitAtText [q, q, q] (List.replicate run q ++ cs)) := by
  fun_induction scanTriple q run cs with
  | case1 run =>
    obtain rfl | rfl | rfl : run = 0 ∨ run = 1 ∨ run = 2 := by omega
    all_goals simp [List.replicate_succ, splitAtText, Scanned.ofSplit]
  | case2 run c rest hc ih =>
    rw [splitAtText_replicate (by simpa using hc) hrun, Scanned.ofSplit_map, ih (by omega)]
    rfl
  | case3 run c rest hc htwo =>
    obtain rfl : c = q := by simpa using hc
    obtain rfl : run = 2 := by simpa using htwo
    simp [List.replicate_succ, splitAtText, Scanned.ofSplit]
  | case4 run c rest hc htwo ih =>
    obtain rfl : c = q := by simpa using hc
    have hne : run ≠ 2 := by simpa using htwo
    rw [ih (by omega), List.replicate_succ', List.append_assoc]
    rfl

/-- Two dollars in a row end the content. -/
theorem scanDollars_eq (cs : List Char) :
    scanDollars cs = .ofSplit (splitAtText ['$', '$'] cs) := by
  fun_induction scanDollars cs with
  | case1 => rfl
  | case2 c hc => simp [splitAtText, Scanned.ofSplit]
  | case3 c hc c' rest hc' =>
    simp [splitAtText, beq_iff_eq.mp hc, beq_iff_eq.mp hc', Scanned.ofSplit]
  | case4 c hc c' rest hc' ih =>
    -- the character behind a lone dollar is passed over with it
    have hne : '$' ≠ c' := fun h => hc' (beq_iff_eq.mpr h.symm)
    rw [ih, ← Scanned.ofSplit_map]
    simp [splitAtText, beq_iff_eq.mp hc, hne]
    rfl
  | case5 c rest hc ih =>
    have hne : '$' ≠ c := fun h => hc (beq_iff_eq.mpr h.symm)
    rw [ih, ← Scanned.ofSplit_map]
    simp [splitAtText, hne]

/-! ## Contents whose characters are escaped -/

/-- An `E'..'` constant escapes all that would be read as an escape or end it. -/
theorem scanEscapeString_escapeContent {fuel : Nat} {content rest : List Char}
    (hfuel : content.length < fuel) (hrest : rest.head? ≠ some '\'') :
    scanEscapeString fuel (escapeContent content ++ '\'' :: rest) = .ok (content, rest) := by
  induction content generalizing fuel with
  | nil =>
    obtain ⟨fuel, rfl⟩ := Nat.exists_eq_add_one_of_ne_zero (Nat.ne_of_gt hfuel)
    cases rest with
    | nil => rfl
    | cons c rest =>
      have hc : c ≠ '\'' := by simpa using hrest
      simp [escapeContent, scanEscapeString, hc]
  | cons c content ih =>
    obtain ⟨fuel, rfl⟩ := Nat.exists_eq_add_one_of_ne_zero (Nat.ne_of_gt (Nat.zero_lt_of_lt hfuel))
    have hread := ih (Nat.lt_of_succ_lt_succ hfuel)
    rw [escapeContent.eq_def]
    dsimp only
    split
    case h_6 hq hb _ _ _ =>
      have hquote : c ≠ '\'' := hq
      have hslash : c ≠ '\\' := hb
      simp [scanEscapeString, hquote, hslash, hread, Scanned.after, Except.map]
    all_goals simp [scanEscapeString, scanEscape, hread, Scanned.after, Except.map]

theorem length_le_escapeContent (content : List Char) :
    content.length ≤ (escapeContent content).length := by
  fun_induction escapeContent <;> simp only [List.length_cons, List.length_nil] <;> omega

theorem hexDigit?_digitChar {n : Nat} (h : n < 16) :
    hexDigit? n.digitChar.toUpper = some n := by
  revert n
  decide

theorem digitsValue?_append (base : Nat) (ds es : List Char) :
    digitsValue? base (ds ++ es) = (digitsValue? base ds).bind fun n =>
      es.foldlM (fun n c => (hexDigit? c).map fun d => n * base + d) n := by
  simp [digitsValue?, List.foldlM_append]

/-- The digits of a number denote it. -/
theorem digitsValue?_toDigits (n : Nat) :
    digitsValue? 16 ((Nat.toDigits 16 n).map Char.toUpper) = some n := by
  induction n using Nat.strongRecOn with
  | ind n ih =>
    by_cases h : n < 16
    · rw [Nat.toDigits_of_lt_base h]
      simp [digitsValue?, hexDigit?_digitChar h]
    · have hlt : n % 16 < 16 := Nat.mod_lt n (by decide)
      rw [Nat.toDigits_eq_if (by decide), if_neg h, List.map_append, digitsValue?_append,
        ih (n / 16) (by omega)]
      simp [hexDigit?_digitChar hlt]
      omega

theorem digitsValue?_hexDigits (k n : Nat) : digitsValue? 16 (hexDigits k n) = some n := by
  have hzeros : ∀ k, digitsValue? 16 (List.replicate k '0') = some 0 := by
    intro k
    induction k with
    | zero => rfl
    | succ k ih =>
      rw [List.replicate_succ', digitsValue?_append, ih]
      rfl
  rw [hexDigits, digitsValue?_append, hzeros]
  exact digitsValue?_toDigits n

theorem length_hexDigits {k n : Nat} (hk : 0 < k) (h : n < 16 ^ k) :
    (hexDigits k n).length = k := by
  have hle := (Nat.length_toDigits_le_iff (by decide : 1 < 16) hk).mpr h
  simp only [hexDigits, List.length_append, List.length_replicate, List.length_map]
  omega

theorem charOf?_toNat (c : Char) : charOf? c.toNat = some c := by
  have h : c.toNat.isValidChar := c.valid
  rw [charOf?, dif_pos h, Option.some.injEq, Char.ext_iff]
  exact UInt32.ofNat_toNat

/-- A code point is read back from its digits. -/
theorem scanCodePoint_hexDigits {k : Nat} {c : Char} (hk : 0 < k) (h : c.toNat < 16 ^ k)
    (rest : List Char) : scanCodePoint k (hexDigits k c.toNat ++ rest) = some (c, rest) := by
  have hlen := length_hexDigits hk h
  have htake : (hexDigits k c.toNat ++ rest).take k = hexDigits k c.toNat := by
    rw [List.take_append_of_le_length (by omega), List.take_of_length_le (by omega)]
  have hdrop : (hexDigits k c.toNat ++ rest).drop k = rest := by
    rw [List.drop_append_of_le_length (by omega), List.drop_of_length_le (by omega),
      List.nil_append]
  rw [scanCodePoint, if_neg (by rw [List.length_append]; omega), htake, hdrop,
    digitsValue?_hexDigits]
  simp [charOf?_toNat]

/-- The digits of a code point are none of the characters that are told apart there. -/
theorem head_hexDigits {k n : Nat} (hk : 0 < k) (h : n < 16 ^ k) (rest : List Char) :
    ∃ c cs, hexDigits k n ++ rest = c :: cs ∧ c ≠ '\'' ∧ c ≠ '\\' ∧ c ≠ '+' := by
  have hlen := length_hexDigits hk h
  obtain ⟨c, cs, hcs⟩ := List.exists_cons_of_length_pos (hlen.symm ▸ hk)
  have hvalue := digitsValue?_hexDigits k n
  rw [hcs, digitsValue?, List.foldlM_cons] at hvalue
  refine ⟨c, cs ++ rest, by rw [hcs, List.cons_append], ?_, ?_, ?_⟩ <;>
    · rintro rfl
      simp [hexDigit?] at hvalue

theorem toNat_lt (c : Char) : c.toNat < 16 ^ 6 := by
  have h : c.toNat.isValidChar := c.valid
  unfold Nat.isValidChar at h
  omega

theorem length_le_unicodeContent (content : List Char) :
    content.length ≤ (unicodeContent content).length := by
  induction content with
  | nil => exact Nat.le_refl _
  | cons c content ih =>
    rw [unicodeContent, List.length_append, List.length_cons, Nat.add_comm]
    refine Nat.add_le_add ?_ ih
    split_ifs <;> simp

/-- A `U&'..'` constant names every character that it does not hold. -/
theorem scanUnicodeString_unicodeContent {fuel : Nat} {content rest : List Char}
    (hfuel : content.length < fuel) (hrest : rest.head? ≠ some '\'') :
    scanUnicodeString fuel (unicodeContent content ++ '\'' :: rest) = .ok (content, rest) := by
  induction content generalizing fuel with
  | nil =>
    obtain ⟨fuel, rfl⟩ := Nat.exists_eq_add_one_of_ne_zero (Nat.ne_of_gt hfuel)
    cases rest with
    | nil => rfl
    | cons c rest =>
      have hc : c ≠ '\'' := by simpa using hrest
      simp [unicodeContent, scanUnicodeString, hc]
  | cons c content ih =>
    obtain ⟨fuel, rfl⟩ := Nat.exists_eq_add_one_of_ne_zero (Nat.ne_of_gt (Nat.zero_lt_of_lt hfuel))
    have hread := ih (Nat.lt_of_succ_lt_succ hfuel)
    rw [unicodeContent]
    by_cases hdouble : (c == '\'' || c == '\\') = true
    · rw [if_pos hdouble]
      simp only [Bool.or_eq_true, beq_iff_eq] at hdouble
      obtain rfl | rfl := hdouble <;>
        simp [scanUnicodeString, hread, Scanned.after, Except.map]
    · rw [if_neg hdouble]
      simp only [Bool.or_eq_true, beq_iff_eq, not_or] at hdouble
      by_cases hascii : c.toNat < 128
      · rw [if_pos hascii]
        simp [scanUnicodeString, hdouble, hread, Scanned.after, Except.map]
      · rw [if_neg hascii]
        by_cases hshort : c.toNat ≤ 0xffff
        · have hlt : c.toNat < 16 ^ 4 := by omega
          obtain ⟨x, xs, hxs, hquote, hslash, hplus⟩ :=
            head_hexDigits (by decide : 0 < 4) hlt (unicodeContent content ++ '\'' :: rest)
          have hpoint := scanCodePoint_hexDigits (by decide) hlt
            (unicodeContent content ++ '\'' :: rest)
          rw [hxs] at hpoint
          rw [if_pos hshort, List.cons_append, List.cons_append, List.append_assoc, hxs,
            scanUnicodeString]
          · simp [hplus, hpoint, hread, Scanned.after, Except.map]
          · exact fun _ h => hquote (List.cons.inj h).1
          · exact fun _ h => hslash (List.cons.inj h).1
        · have hpoint := scanCodePoint_hexDigits (by decide) (toNat_lt c)
            (unicodeContent content ++ '\'' :: rest)
          rw [if_neg hshort]
          simp [scanUnicodeString, hpoint, hread, Scanned.after, Except.map]

end RowPolicy.Sql
