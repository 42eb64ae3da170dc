import RowPolicy.Sql.Lexer

/-!
# The lexer goes forward

Whatever is read from the front of some characters, what follows it is an end of them
(`scanToken_within`). So each step of the lexer takes at least one character, and a bound on the
steps that is no smaller than the number of characters changes nothing (`scanAll_congr`): the
tokens of a text are read step by step, without a bound (`tokensFrom_token`, `tokensFrom_blank`).
-/

namespace RowPolicy.Sql

/-! ## What follows a reading -/

namespace Scanned

variable {α β : Type} {t : Scanned α} {cs cs' : List Char}

/-- Whether what follows a reading is an end of some characters. -/
def Within (t : Scanned α) (cs : List Char) : Prop :=
  ∀ a r, t = .ok (a, r) → r <:+ cs

theorem within_ok {a : α × List Char} (h : a.2 <:+ cs) : Within (.ok a) cs := by
  rintro _ _ heq
  cases heq
  exact h

theorem within_error (e : Fault) : Within (.error e : Scanned α) cs := by
  rintro _ _ heq
  cases heq

theorem Within.mono (h : t.Within cs) (hsuffix : cs <:+ cs') : t.Within cs' :=
  fun a r heq => (h a r heq).trans hsuffix

/-- One more character in front. -/
theorem Within.cons (h : t.Within cs) (c : Char) : t.Within (c :: cs) :=
  h.mono (List.suffix_cons c cs)

theorem Within.ite {p : Prop} [Decidable p] {t' : Scanned α} (h : p → t.Within cs)
    (h' : ¬p → t'.Within cs) : Within (if p then t else t') cs := by
  split
  · exact h ‹_›
  · exact h' ‹_›

theorem Within.map (h : t.Within cs) (f : α → β) :
    Within (t.map fun (a, r) => (f a, r)) cs := by
  cases t with
  | error e => exact within_error e
  | ok a => exact within_ok (h a.1 a.2 rfl)

theorem Within.after {t : Scanned (List Char)} (h : t.Within cs) (front : List Char) :
    (t.after front).Within cs :=
  h.map _

theorem Within.token {t : Scanned (List Char)} (h : t.Within cs) (make : String → Token) :
    (t.token make).Within cs :=
  h.map fun s => make (String.ofList s)

end Scanned

open Scanned

/-! ## Strings and comments -/

theorem scanQuoted_within (q : Char) (escapes wildcards : Bool) (cs : List Char) :
    (scanQuoted q escapes wildcards cs).Within cs := by
  fun_induction scanQuoted with
  | case1 => exact within_error _
  | case2 c _ c' rest _ ih => exact ((ih.after _).cons c').cons c
  | case3 c _ c' rest _ => exact within_ok (List.suffix_cons c _)
  | case4 c _ => exact within_ok (List.nil_suffix)
  | case5 => exact within_error _
  | case6 c _ _ n rest ih => exact ((ih.after _).cons n).cons c
  | case7 c rest _ _ ih => exact (ih.after _).cons c

theorem scanTriple_within (q : Char) (run : Nat) (cs : List Char) :
    (scanTriple q run cs).Within cs := by
  fun_induction scanTriple with
  | case1 => exact within_error _
  | case2 _ c _ _ ih => exact (ih.after _).cons c
  | case3 => exact within_ok (List.suffix_cons _ _)
  | case4 _ c _ _ _ ih => exact ih.cons c

theorem scanDollars_within (cs : List Char) : (scanDollars cs).Within cs := by
  fun_induction scanDollars with
  | case1 => exact within_error _
  | case2 => exact within_error _
  | case3 c _ c' rest _ => exact within_ok ((List.suffix_cons c' rest).trans (List.suffix_cons c _))
  | case4 c _ c' _ _ ih => exact ((ih.after _).cons c').cons c
  | case5 c _ _ ih => exact (ih.after _).cons c

theorem scanComment_within (nests : Bool) (depth : Nat) (cs : List Char) :
    (scanComment nests depth cs).Within cs := by
  fun_induction scanComment with
  | case1 => exact within_error _
  | case2 _ c _ _ ih => exact ((ih.after _).cons _).cons c
  | case3 c rest => exact within_ok ((List.suffix_cons _ rest).trans (List.suffix_cons c _))
  | case4 c _ _ _ ih => exact ((ih.after _).cons _).cons c
  | case5 _ c _ _ _ _ ih => exact (ih.after _).cons c

theorem skipLine_suffix (d : Dialect) (cs : List Char) : skipLine d cs <:+ cs :=
  (List.drop_suffix _ _).trans (List.dropWhile_suffix _)

theorem scanSignedCodePoint_suffix {k : Nat} {rest r : List Char} {e : Char}
    (h : scanSignedCodePoint k rest = some (e, r)) : r <:+ rest := by
  simp only [scanSignedCodePoint, Option.ite_none_left_eq_some, Option.map_eq_some_iff,
    Prod.mk.injEq] at h
  obtain ⟨-, _, -, -, rfl⟩ := h
  exact List.drop_suffix _ _

theorem scanCodePoint_suffix {k : Nat} {rest r : List Char} {e : Char}
    (h : scanCodePoint k rest = some (e, r)) : r <:+ rest := by
  simp only [scanCodePoint, Option.ite_none_left_eq_some, Option.map_eq_some_iff,
    Prod.mk.injEq] at h
  obtain ⟨-, _, -, -, rfl⟩ := h
  exact List.drop_suffix _ _

theorem scanEscape_byte_eq {base : Nat} {ds after r : List Char} {e : Char}
    (h : scanEscape.byte base ds after = some (e, r)) : r = after := by
  simp only [scanEscape.byte, bind, Option.bind_eq_some_iff] at h
  obtain ⟨v, -, h⟩ := h
  split at h
  · cases h; rfl
  · cases h

theorem scanEscape_suffix {n e : Char} {rest r : List Char} (h : scanEscape n rest = some (e, r)) :
    r <:+ rest := by
  revert h
  fun_cases scanEscape with
  | case6 => exact scanSignedCodePoint_suffix
  | case7 => exact scanSignedCodePoint_suffix
  | case9 =>
    intro h
    rw [scanEscape_byte_eq h]
    exact List.drop_suffix _ _
  | case10 =>
    intro h
    rw [scanEscape_byte_eq h]
    exact List.drop_suffix _ _
  | _ =>
    intro h
    cases h
    exact List.suffix_rfl

theorem scanEscapeString_within (fuel : Nat) (cs : List Char) :
    (scanEscapeString fuel cs).Within cs := by
  fun_induction scanEscapeString with
  | case3 _ c _ _ ih => exact ((ih.after _).cons _).cons c
  | case4 _ c => exact within_ok (List.suffix_cons c _)
  | case8 _ c _ _ n _ _ _ h _ ih =>
    exact (((ih.after _).mono (scanEscape_suffix h)).cons n).cons c
  | case9 _ c _ _ _ ih => exact (ih.after _).cons c
  | _ => exact within_error _

theorem scanUnicodeString_within (fuel : Nat) (cs : List Char) :
    (scanUnicodeString fuel cs).Within cs := by
  fun_induction scanUnicodeString with
  | case1 => exact within_error _
  | case2 => exact within_error _
  | case3 _ c _ _ ih => exact ((ih.after _).cons _).cons c
  | case4 _ c => exact within_ok (List.suffix_cons c _)
  | case5 _ c _ _ _ ih => exact ((ih.after _).cons _).cons c
  | case6 _ _ _ _ _ long h =>
    dsimp only
    rw [h]
    exact within_error _
  | case7 _ c rest _ _ long _ _ h _ ih =>
    dsimp only
    rw [h]
    refine ((ih.after _).mono ?_).cons c
    split at h
    · exact (scanCodePoint_suffix h).trans (List.tail_suffix rest)
    · exact scanCodePoint_suffix h
  | case8 _ c _ _ _ ih => exact (ih.after _).cons c

theorem splitAtText_suffix {stop cs s r : List Char} (h : splitAtText stop cs = some (s, r)) :
    r <:+ cs := by
  fun_induction splitAtText generalizing s r with
  | case1 => cases h; exact List.nil_suffix
  | case2 => cases h
  | case3 => cases h; exact List.drop_suffix _ _
  | case4 c rest _ ih =>
    obtain ⟨_, hrest, heq⟩ := Option.map_eq_some_iff.mp h
    cases heq
    exact (ih hrest).trans (List.suffix_cons c rest)

/-! ## Numbers -/

theorem scanDigitsOf_suffix (isDigit : Char → Bool) (separators : Bool) (cs : List Char) :
    (scanDigitsOf isDigit separators cs).2 <:+ cs := by
  fun_induction scanDigitsOf with
  | case1 => exact List.suffix_rfl
  | case2 c _ _ _ _ heq ih => rw [heq] at ih; exact ih.trans (List.suffix_cons c _)
  | case3 => exact List.suffix_rfl

theorem scanExponent_suffix (cs : List Char) : (scanExponent cs).2.2 <:+ cs := by
  fun_cases scanExponent with
  | case1 e rest _ sign rest' heq =>
    have hsign : rest' <:+ rest := by
      split at heq
      · split at heq <;> cases heq
        · exact List.suffix_cons _ _
        · exact List.suffix_rfl
      · cases heq
        exact List.suffix_rfl
    dsimp only
    split
    · exact List.suffix_rfl
    · exact ((List.drop_suffix _ _).trans hsign).trans (List.suffix_cons e rest)
  | case2 => exact List.suffix_rfl
  | case3 => exact List.suffix_rfl

/-- What follows the digits and the period at the front, if either is there. -/
theorem suffix_of_scanDigits {separators : Bool} {c : Char} {rest s r p r' : List Char}
    (hc : c.isDigit = true ∨ c = '.')
    (hpoint : (match r with
      | '.' :: r => (['.'], r)
      | r => ([], r)) = (p, r')) (h : scanDigits separators (c :: rest) = (s, r)) :
    r' <:+ rest ∧ (s ≠ [] → r <:+ rest) := by
  by_cases hdigit : c.isDigit = true
  · have hr : r <:+ rest := by
      rw [scanDigits, scanDigitsOf.eq_def] at h
      simp only [hdigit, Bool.true_or, if_true] at h
      cases h
      exact scanDigitsOf_suffix _ _ rest
    refine ⟨?_, fun _ => hr⟩
    split at hpoint <;> cases hpoint
    · exact (List.suffix_cons _ _).trans hr
    · exact hr
  · obtain rfl : c = '.' := hc.resolve_left hdigit
    have hnone : scanDigits separators ('.' :: rest) = ([], '.' :: rest) := by
      simp [scanDigits, scanDigitsOf.eq_def]
    rw [hnone] at h
    cases h
    cases hpoint
    exact ⟨List.suffix_rfl, fun hs => absurd rfl hs⟩

/-- What follows the whole part, the period and the fraction of a number. -/
theorem suffix_of_fraction {separators : Bool} {c : Char} {rest s r p r' fraction r'' : List Char}
    (hc : c.isDigit = true ∨ c = '.')
    (hpoint : (match r with
      | '.' :: r => (['.'], r)
      | r => ([], r)) = (p, r'))
    (hwhole : scanDigits separators (c :: rest) = (s, r))
    (hfraction : scanDigits separators r' = (fraction, r'')) : r'' <:+ rest := by
  have h := scanDigitsOf_suffix Char.isDigit separators r'
  rw [← scanDigits, hfraction] at h
  exact h.trans (suffix_of_scanDigits hc hpoint hwhole).1

/-- What follows the exponent too. -/
theorem suffix_of_exponent {separators marked : Bool} {c : Char}
    {rest s r p r' fraction r'' exponent after : List Char} (hc : c.isDigit = true ∨ c = '.')
    (hpoint : (match r with
      | '.' :: r => (['.'], r)
      | r => ([], r)) = (p, r'))
    (hwhole : scanDigits separators (c :: rest) = (s, r))
    (hfraction : scanDigits separators r' = (fraction, r''))
    (hexponent : scanExponent r'' = (marked, exponent, after)) : after <:+ rest := by
  have h := scanExponent_suffix r''
  rw [hexponent] at h
  exact h.trans (suffix_of_fraction hc hpoint hwhole hfraction)

/-- A number takes its first character. -/
theorem scanNumber_within (d : Dialect) (last : Option Token) {c : Char} {rest : List Char}
    (hc : c.isDigit = true ∨ c = '.') : (scanNumber d last (c :: rest)).Within rest := by
  fun_cases scanNumber with
  | case1 => exact within_ok List.suffix_rfl
  | case2 => exact within_error _
  | case3 f _ rest' ds after hafter hwhole =>
    have hrest := (suffix_of_scanDigits hc rfl hwhole).2 (by simp)
    have hds := scanDigitsOf_suffix (fun c => (hexDigit? c).isSome) f.digitSeparators rest'
    rw [hafter] at hds
    exact within_ok ((hds.trans (List.suffix_cons _ _)).trans hrest)
  | case4 _ _ _ _ _ hwhole _ _ hpoint hempty =>
    simp only [hpoint, hempty, if_true]
    exact within_ok (suffix_of_scanDigits hc hpoint hwhole).1
  | case5 _ _ _ _ _ hwhole _ _ hpoint hempty _ _ hfraction mantissa hdot =>
    simp only [hpoint, hempty, hfraction, mantissa, hdot, if_true]
    exact within_ok (suffix_of_fraction hc hpoint hwhole hfraction)
  | case6 _ _ _ _ _ hwhole _ _ hpoint hempty _ _ hfraction mantissa hdot _ _ _ hexponent tail
      hname =>
    simp only [hpoint, hempty, hfraction, mantissa, hdot, hexponent, tail, hname, if_true]
    exact within_ok ((List.drop_suffix _ _).trans
      (suffix_of_exponent hc hpoint hwhole hfraction hexponent))
  | case7 _ _ _ _ _ hwhole _ _ hpoint hempty _ _ hfraction mantissa hdot _ _ _ hexponent tail
      hname hkept =>
    simp only [hpoint, hempty, hfraction, mantissa, hdot, hexponent, tail, hname, hkept, if_true]
    exact within_ok (suffix_of_exponent hc hpoint hwhole hfraction hexponent)
  | case8 _ _ _ _ _ hwhole _ _ hpoint hempty _ _ hfraction mantissa hdot _ _ hkept _ _ hexponent
      tail hname =>
    simp only [hpoint, hempty, hfraction, mantissa, hdot, hexponent, tail, hname, hkept]
    exact within_ok ((List.suffix_cons _ _).trans
      (suffix_of_exponent hc hpoint hwhole hfraction hexponent))
  | case9 _ _ _ _ _ hwhole _ _ hpoint hempty _ _ hfraction mantissa hdot _ _ hkept _ hlong _
      hexponent tail hname =>
    simp only [hpoint, hempty, hfraction, mantissa, hdot, hexponent, tail, hname, hkept]
    exact within_ok (suffix_of_exponent hc hpoint hwhole hfraction hexponent)

/-! ## Words, placeholders, operators -/

theorem scanWord_suffix (d : Dialect) (front rest : List Char) :
    (scanWord d front rest).2 <:+ rest := by
  dsimp only [scanWord]
  split
  · exact (List.drop_suffix _ _).trans (List.drop_suffix _ _)
  · exact List.drop_suffix _ _

theorem scanQuotedName_within (q : Char) (cs : List Char) : (scanQuotedName q cs).Within cs :=
  (scanQuoted_within _ _ _ cs).token _

theorem scanDollar_placeholder_within (plain : Bool) (cs : List Char) :
    (scanDollar.placeholder plain cs).Within cs := by
  dsimp only [scanDollar.placeholder]
  generalize htag : cs.takeWhile _ = tag
  have hdrop : cs.drop tag.length <:+ cs := List.drop_suffix _ _
  split
  · rename_i rest heq
    rw [heq] at hdrop
    split
    · exact within_ok hdrop
    · split
      · exact within_error _
      · rename_i hsplit
        exact within_ok (((splitAtText_suffix hsplit).trans (List.suffix_cons _ _)).trans hdrop)
  · exact within_ok hdrop

theorem scanDollar_within (d : Dialect) (cs : List Char) : (scanDollar d cs).Within cs := by
  dsimp only [scanDollar]
  split
  · split
    · exact scanDollar_placeholder_within _ _
    · exact ((scanDollars_within _).token _).cons _
  · exact scanDollar_placeholder_within _ _

theorem scanOperator_within (d : Dialect) (s : OpenSymbol) (rest : List Char) :
    (scanOperator d s rest).Within rest := by
  dsimp only [scanOperator]
  split
  · exact within_ok ((List.drop_suffix _ _).trans (List.drop_suffix _ _))
  · split
    · exact within_ok (List.drop_suffix _ _)
    · exact within_error _

/-- The characters with which symbols begin. -/
def symbolHeads : List Char :=
  ['-', '|', '<', '>', '&', '~', '#', '%', '=', '!', ':', '^', '/', '+', '*', '(', ')', ',', ';',
    '\\', '[', ']', '\x7b', '\x7d', '?']

/-- Whether a symbol begins with one of them. -/
def hasSymbolHead (s : String) : Bool :=
  s.toList.head?.any symbolHeads.contains

theorem hasSymbolHead_iff {s : String} :
    hasSymbolHead s = true ↔ ∃ c cs, s.toList = c :: cs ∧ c ∈ symbolHeads := by
  rw [hasSymbolHead]
  cases s.toList <;> simp

theorem hasSymbolHead_of_mem_openSymbols {f : Dialect.Features} {s : OpenSymbol}
    (hs : s ∈ openSymbols f) : hasSymbolHead s.written = true := by
  have hall : ∀ geometric pipes : Bool,
      ∀ s ∈ openSymbols { geometric, pipes }, hasSymbolHead s.written = true := by
    decide
  exact hall f.geometric f.pipes s hs

theorem hasSymbolHead_of_mem_closedSymbols {f : Dialect.Features} {s : String}
    (hs : s ∈ closedSymbols f) : hasSymbolHead s = true := by
  have hall : ∀ geometric doubleSlash questionOperators : Bool,
      ∀ s ∈ closedSymbols { geometric, doubleSlash, questionOperators },
        hasSymbolHead s = true := by
    decide
  exact hall f.geometric f.doubleSlash f.questionOperators s hs

theorem matchOpen?_within {d : Dialect} {c : Char} {rest : List Char} {t : Scanned Token}
    (h : matchOpen? d (c :: rest) = some t) : t.Within rest := by
  obtain ⟨s, hs, rfl⟩ := Option.map_eq_some_iff.mp h
  obtain ⟨c', cs, hwritten, -⟩ := hasSymbolHead_iff.mp
    (hasSymbolHead_of_mem_openSymbols (List.mem_of_find?_eq_some hs))
  rw [← String.length_toList, hwritten, List.length_cons, List.drop_succ_cons]
  exact (scanOperator_within d s _).mono (List.drop_suffix _ _)

theorem matchClosed?_suffix {d : Dialect} {c : Char} {rest : List Char} {t : Token × List Char}
    (h : matchClosed? d (c :: rest) = some t) : t.2 <:+ rest := by
  obtain ⟨s, hs, rfl⟩ := Option.map_eq_some_iff.mp h
  obtain ⟨c', cs, hsymbol, -⟩ := hasSymbolHead_iff.mp
    (hasSymbolHead_of_mem_closedSymbols (List.mem_of_find?_eq_some hs))
  rw [← String.length_toList, hsymbol, List.length_cons, List.drop_succ_cons]
  exact List.drop_suffix _ _

theorem scanSharp_within (d : Dialect) (rest : List Char) : (scanSharp d rest).Within rest := by
  unfold scanSharp
  split
  · exact within_ok List.suffix_rfl
  · split
    · exact within_ok ((scanWord_suffix d _ _).trans (List.suffix_cons _ _))
    · exact scanOperator_within _ _ _
  · exact scanOperator_within _ _ _

theorem scanAt_plain_suffix (d : Dialect) (rest : List Char) :
    (scanAt.plain d rest).2 <:+ rest := by
  unfold scanAt.plain
  split
  · split
    · exact (scanWord_suffix d _ _).trans (List.suffix_cons _ _)
    · exact List.suffix_rfl
  · exact List.suffix_rfl

theorem scanAt_within (d : Dialect) (rest : List Char) : (scanAt d rest).Within rest := by
  dsimp only [scanAt]
  split
  · split
    · split
      · exact within_ok ((List.suffix_cons _ _).trans (List.suffix_cons _ _))
      · exact (scanOperator_within _ _ _).cons _
    · exact within_ok (scanAt_plain_suffix d _)
  · exact within_ok (List.suffix_cons _ _)
  · exact within_ok (List.suffix_cons _ _)
  · split
    · exact within_ok (List.suffix_cons _ _)
    · split
      · split
        · exact within_ok (((scanWord_suffix d _ _).trans (List.suffix_cons _ _)).trans
            (List.suffix_cons _ _))
        · exact within_ok (List.suffix_cons _ _)
      · exact within_ok (List.suffix_cons _ _)
  · exact within_ok (scanAt_plain_suffix d _)

/-! ## One token -/

theorem scanString_within (kind : StringKind) (q : Char) (escapes wildcards : Bool)
    (rest : List Char) : (scanString kind q escapes wildcards rest).Within rest :=
  (scanQuoted_within q escapes wildcards rest).token _

theorem scanRaw_within (single triple : StringKind) (q : Char) (rest : List Char) :
    (scanRaw single triple q rest).Within rest := by
  unfold scanRaw
  split
  · split
    · exact scanString_within _ _ _ _ _
    · split
      · split
        · exact ((scanTriple_within _ _ _).token _).cons _ |>.cons _
        · exact within_ok (List.suffix_cons _ _)
      · exact within_ok (List.nil_suffix)
  · exact within_error _

theorem scanPrefixed_within {d : Dialect} {c : Char} {rest : List Char} {t : Scanned Token}
    (h : scanPrefixed d (c :: rest) = some t) : t.Within rest := by
  have hif : ∀ {p : Prop} [Decidable p] {t' : Scanned Token} {cs : List Char} (q : Char),
      t'.Within cs → (if p then some t' else none) = some t → t.Within (q :: cs) := by
    intro p _ t' cs q ht heq
    obtain ⟨-, rfl⟩ : p ∧ t' = t := by simpa using heq
    exact ht.cons q
  revert h
  dsimp only [scanPrefixed]
  split
  · rename_i heq
    cases heq
    split
    · exact hif _ (scanString_within _ _ _ _ _)
    · exact hif _ (scanRaw_within _ _ _ _)
    · rintro ⟨⟩
      exact (scanString_within _ _ _ _ _).cons _
    · exact hif _ ((scanEscapeString_within _ _).token _)
    · rintro ⟨⟩
      exact (scanString_within _ _ _ _ _).cons _
    · exact nofun
  · rename_i heq
    cases heq
    split
    · exact hif _ (scanString_within _ _ _ _ _)
    · exact hif _ (scanRaw_within _ _ _ _)
    · exact nofun
  · rename_i heq
    cases heq
    exact hif _ (((scanUnicodeString_within _ _).token _).cons _)
  · exact nofun

/-- One step of the lexer takes its first character. -/
theorem scanToken_within (d : Dialect) (last : Option Token) (c : Char) (rest : List Char) :
    (scanToken d last c rest).Within rest := by
  unfold scanToken
  extract_lets f cs one all
  have hall : ∀ {t : Scanned Token}, t.Within rest → (all t).Within rest := fun h => h.map some
  refine .ite (fun _ => within_ok List.suffix_rfl) fun _ => ?_
  refine .ite (fun _ => within_ok ((skipLine_suffix d _).trans (List.tail_suffix rest)))
    fun _ => ?_
  refine .ite (fun _ => within_ok (skipLine_suffix d rest)) fun _ => ?_
  refine .ite (fun _ => ?_) fun _ => ?_
  · exact ((scanComment_within _ _ _).mono (List.tail_suffix rest)).map fun _ => none
  cases hprefixed : scanPrefixed d cs with
  | some t => exact hall (scanPrefixed_within hprefixed)
  | none =>
    refine .ite (fun _ => within_ok (scanWord_suffix d [c] rest)) fun _ => ?_
    refine .ite (fun _ => hall (scanString_within _ _ _ _ _)) fun _ => ?_
    refine .ite (fun _ => hall (scanString_within _ _ _ _ _)) fun _ => ?_
    refine .ite (fun _ => hall (scanQuotedName_within _ _)) fun _ => ?_
    refine .ite (fun h => hall (scanNumber_within d last (by simpa using h))) fun _ => ?_
    cases hopen : matchOpen? d cs with
    | some t => exact hall (matchOpen?_within hopen)
    | none =>
      cases hclosed : matchClosed? d cs with
      | some t => exact within_ok (matchClosed?_suffix hclosed)
      | none =>
        refine .ite (fun _ => hall (scanSharp_within d rest)) fun _ => ?_
        refine .ite (fun _ => hall (scanAt_within d rest)) fun _ => ?_
        refine .ite (fun _ => within_ok (List.drop_suffix _ _)) fun _ => ?_
        refine .ite (fun _ => within_ok (scanWord_suffix d [c] rest)) fun _ => ?_
        refine .ite (fun _ => hall (scanDollar_within d rest)) fun _ => ?_
        exact .ite (fun _ => within_ok List.suffix_rfl) fun _ => within_ok List.suffix_rfl

/-! ## All tokens -/

/-- Two bounds that are no smaller than the number of characters give the same. -/
theorem scanAll_congr (d : Dialect) {n m : Nat} (hmn : m ≤ n) (last : Option Token)
    {cs : List Char} (hm : cs.length ≤ m) : scanAll d n last cs = scanAll d m last cs := by
  induction n generalizing m last cs with
  | zero =>
    obtain rfl : m = 0 := by omega
    rfl
  | succ n ih =>
    cases cs with
    | nil => simp [scanAll]
    | cons c rest =>
      obtain ⟨m, rfl⟩ : ∃ m', m = m' + 1 := ⟨m - 1, by simp at hm; omega⟩
      rw [scanAll, scanAll]
      cases hstep : scanToken d last c rest with
      | error e => rfl
      | ok a =>
        obtain ⟨t, r⟩ := a
        have hr := (scanToken_within d last c rest _ _ hstep).length_le
        have hrest : ∀ last, scanAll d n last r = scanAll d m last r := fun last =>
          ih (by omega) last (by simp at hm; omega)
        cases t <;> simp [bind, Except.bind, hrest]

/-- The tokens of some characters behind a token, or behind none. -/
def tokensFrom (d : Dialect) (last : Option Token) (cs : List Char) : Except Fault (List Token) :=
  (scanAll d cs.length last cs).map (List.map Lexeme.token)

theorem tokensFrom_nil (d : Dialect) (last : Option Token) : tokensFrom d last [] = .ok [] :=
  rfl

theorem tokensFrom_token {d : Dialect} {last : Option Token} {c : Char} {rest r : List Char}
    {t : Token} (h : scanToken d last c rest = .ok (some t, r)) :
    tokensFrom d last (c :: rest) = (tokensFrom d (some t) r).map (t :: ·) := by
  have hr := (scanToken_within d last c rest _ _ h).length_le
  rw [tokensFrom, List.length_cons, scanAll, h]
  simp only [bind, Except.bind]
  rw [scanAll_congr d hr _ (Nat.le_refl _), tokensFrom]
  cases scanAll d r.length (some t) r <;> rfl

theorem tokensFrom_blank {d : Dialect} {last : Option Token} {c : Char} {rest r : List Char}
    (h : scanToken d last c rest = .ok (none, r)) :
    tokensFrom d last (c :: rest) = tokensFrom d none r := by
  have hr := (scanToken_within d last c rest _ _ h).length_le
  rw [tokensFrom, List.length_cons, scanAll, h]
  simp only [bind, Except.bind]
  rw [scanAll_congr d hr _ (Nat.le_refl _), tokensFrom]

theorem tokensFrom_toList (d : Dialect) (s : String) :
    tokensFrom d none s.toList = (Lexeme.scan d s).map (List.map Lexeme.token) :=
  rfl

end RowPolicy.Sql
