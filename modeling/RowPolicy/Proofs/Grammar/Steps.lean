import RowPolicy.Sql.Grammar

/-!
# Running readers

What the readers of one token do, as equations of their results. A reader that looks for a word or a
symbol which does not come next takes nothing; `simp` follows a reader through its steps with these
equations and what is known of the next token.
-/

namespace RowPolicy.Sql

/-- The token that comes next. -/
def headToken (ls : List Lexeme) : Option Token :=
  ls.head?.map Lexeme.token

/-- The keyword that the next token spells, empty when it spells none. -/
def headKeyword (ls : List Lexeme) : String :=
  ((headToken ls).map Token.keyword).getD ""

@[simp] theorem headToken_nil : headToken [] = none :=
  rfl

@[simp] theorem headToken_cons (l : Lexeme) (ls : List Lexeme) :
    headToken (l :: ls) = some l.token :=
  rfl

@[simp] theorem headKeyword_nil : headKeyword [] = "" :=
  rfl

@[simp] theorem headKeyword_cons (l : Lexeme) (ls : List Lexeme) :
    headKeyword (l :: ls) = l.token.keyword :=
  rfl

namespace Reader

variable {α β : Type} {σ : Setting} {ls : List Lexeme}

/-! ## Composed readers -/

@[simp ↓] theorem bind_apply (p : Reader α) (f : α → Reader β) (σ : Setting) (ls : List Lexeme) :
    (p >>= f) σ ls = (p σ ls).bind fun x => f x.1 σ x.2 :=
  rfl

@[simp] theorem map_apply (f : α → β) (p : Reader α) (σ : Setting) (ls : List Lexeme) :
    (f <$> p) σ ls = (p σ ls).map fun x => (f x.1, x.2) :=
  rfl

@[congr] theorem bind_congr_left {ε : Type} {x x' : Except ε α} (h : x = x')
    (f : α → Except ε β) : x.bind f = x'.bind f :=
  congrArg (Except.bind · f) h

@[simp] theorem ok_bind {ε : Type} (a : α) (f : α → Except ε β) :
    (Except.ok a).bind f = f a :=
  rfl

@[simp] theorem error_bind {ε : Type} (e : ε) (f : α → Except ε β) :
    (Except.error e).bind f = .error e :=
  rfl

@[simp] theorem ok_map {ε : Type} (f : α → β) (a : α) :
    (Except.ok a : Except ε α).map f = .ok (f a) :=
  rfl

@[simp] theorem error_map {ε : Type} (f : α → β) (e : ε) :
    (Except.error e : Except ε α).map f = .error e :=
  rfl

@[simp] theorem pure_apply (a : α) (σ : Setting) (ls : List Lexeme) :
    (pure a : Reader α) σ ls = .ok (a, ls) :=
  rfl

@[simp] theorem read_apply (σ : Setting) (ls : List Lexeme) :
    (read : Reader Setting) σ ls = .ok (σ, ls) :=
  rfl

@[simp] theorem get_apply (σ : Setting) (ls : List Lexeme) :
    (get : Reader (List Lexeme)) σ ls = .ok (ls, ls) :=
  rfl

@[simp] theorem set_apply (ls' : List Lexeme) (σ : Setting) (ls : List Lexeme) :
    (set ls' : Reader PUnit) σ ls = .ok (⟨⟩, ls') :=
  rfl

@[simp] theorem modify_apply (f : List Lexeme → List Lexeme) (σ : Setting) (ls : List Lexeme) :
    (modify f : Reader PUnit) σ ls = .ok (⟨⟩, f ls) :=
  rfl

@[simp] theorem throw_apply (fault : Fault) (σ : Setting) (ls : List Lexeme) :
    (throw fault : Reader α) σ ls = .error fault :=
  rfl

@[simp] theorem ite_apply (c : Prop) [Decidable c] (p q : Reader α) (σ : Setting)
    (ls : List Lexeme) : (if c then p else q) σ ls = if c then p σ ls else q σ ls := by
  split <;> rfl

@[simp] theorem andM_apply (p q : Reader Bool) (σ : Setting) (ls : List Lexeme) :
    (p <&&> q) σ ls = (p σ ls).bind fun x => if x.1 then q σ x.2 else .ok (false, x.2) := by
  change (p σ ls).bind _ = _
  congr 1
  funext x
  obtain ⟨b, ls'⟩ := x
  cases b <;> rfl

@[simp] theorem feature_apply (f : Dialect.Features → Bool) (σ : Setting) (ls : List Lexeme) :
    feature f σ ls = .ok (f σ.dialect.features, ls) :=
  rfl

@[simp] theorem inDialect_apply (ds : List Dialect) (σ : Setting) (ls : List Lexeme) :
    inDialect ds σ ls = .ok (ds.contains σ.dialect, ls) :=
  rfl

@[simp] theorem strength_apply (s : Strength) (σ : Setting) (ls : List Lexeme) :
    strength s σ ls = .ok (σ.dialect.strength s, ls) :=
  rfl

/-! ## One token -/

@[simp] theorem peek_apply (σ : Setting) (ls : List Lexeme) :
    peek σ ls = .ok (headToken ls, ls) :=
  rfl

@[simp] theorem advance_apply (σ : Setting) (ls : List Lexeme) :
    advance σ ls = .ok ((), ls.tail) :=
  rfl

@[simp] theorem expected_apply (wanted : String) (σ : Setting) (ls : List Lexeme) :
    (expected wanted : Reader α) σ ls = .error (.unexpected wanted (headToken ls)) :=
  rfl

@[simp] theorem peekAt_apply (n : Nat) (σ : Setting) (ls : List Lexeme) :
    peekAt n σ ls = .ok (ls[n]?.map Lexeme.token, ls) :=
  rfl

theorem keywordAt_apply (n : Nat) (σ : Setting) (ls : List Lexeme) :
    keywordAt n σ ls = .ok (((ls[n]?.map Lexeme.token).map Token.keyword).getD "", ls) :=
  rfl

@[simp] theorem keywordAt_zero (σ : Setting) (ls : List Lexeme) :
    keywordAt 0 σ ls = .ok (headKeyword ls, ls) := by
  cases ls <;> rfl

@[simp] theorem peekSymbol_apply (s : String) (σ : Setting) (ls : List Lexeme) :
    peekSymbol s σ ls = .ok (headToken ls == some (.symbol s), ls) :=
  rfl

@[simp] theorem peekKeyword_apply (k : String) (σ : Setting) (ls : List Lexeme) :
    peekKeyword k σ ls = .ok (headKeyword ls == k, ls) := by
  simp [peekKeyword]

@[simp] theorem symbol?_apply (s : String) (σ : Setting) (ls : List Lexeme) :
    symbol? s σ ls =
      .ok (if headToken ls = some (.symbol s) then (true, ls.tail) else (false, ls)) := by
  simp only [symbol?, bind_apply, peekSymbol_apply, ok_bind, beq_iff_eq]
  split <;> rfl

@[simp] theorem keyword?_apply (k : String) (σ : Setting) (ls : List Lexeme) :
    keyword? k σ ls = .ok (if headKeyword ls = k then (true, ls.tail) else (false, ls)) := by
  simp only [keyword?, bind_apply, peekKeyword_apply, ok_bind, beq_iff_eq]
  split <;> rfl

@[simp] theorem symbol_apply (s : String) (σ : Setting) (ls : List Lexeme) :
    symbol s σ ls = if headToken ls = some (.symbol s) then .ok ((), ls.tail)
      else .error (.unexpected s (headToken ls)) := by
  simp only [symbol, bind_apply, symbol?_apply, ok_bind]
  split <;> rfl

@[simp] theorem keyword_apply (k : String) (σ : Setting) (ls : List Lexeme) :
    keyword k σ ls = if headKeyword ls = k then .ok ((), ls.tail)
      else .error (.unexpected k (headToken ls)) := by
  simp only [keyword, bind_apply, keyword?_apply, ok_bind]
  split <;> rfl

theorem keywords?_of_ne {k : String} {ks : List String} (h : headKeyword ls ≠ k) :
    keywords? (k :: ks) σ ls = .ok (false, ls) := by
  cases ls with
  | nil => simp [keywords?]
  | cons l ls =>
    rw [headKeyword_cons] at h
    simp [keywords?, h]

theorem words?_of_ne {k : String} {ks : List String} (h : headKeyword ls ≠ k) :
    words? (k :: ks) σ ls = .ok ("", ls) := by
  simp only [words?, bind_apply, keywords?_of_ne h, ok_bind, pure_apply]
  rfl

theorem keywordOf?_of_notMem {ks : List String} (h : headKeyword ls ∉ ks) :
    keywordOf? ks σ ls = .ok (none, ls) := by
  simp [keywordOf?, h]

theorem attempt_of_error {p : Reader α} {fault : Fault} (h : p σ ls = .error fault)
    (hfault : fault ≠ .tooDeep) : attempt p σ ls = .ok (none, ls) := by
  cases fault <;> simp_all [attempt]

/-! ## Repetition -/

/-- The states that a step goes through from one to another, taking lexemes each time. -/
inductive Walks (step : α → Reader (Option α)) (σ : Setting) :
    α → List Lexeme → α → List Lexeme → Prop
  | refl (a : α) (ls : List Lexeme) : Walks step σ a ls a ls
  | head {a a' b : α} {ls ls' rest : List Lexeme} (h : step a σ ls = .ok (some a', ls'))
      (hlt : ls'.length < ls.length) (hwalks : Walks step σ a' ls' b rest) :
      Walks step σ a ls b rest

namespace Walks

variable {step : α → Reader (Option α)} {a b c : α} {mid rest : List Lexeme}

theorem trans (h : Walks step σ a ls b mid) (h' : Walks step σ b mid c rest) :
    Walks step σ a ls c rest := by
  induction h with
  | refl => exact h'
  | head hstep hlt _ ih => exact .head hstep hlt (ih h')

theorem snoc (h : Walks step σ a ls b mid) (hstep : step b σ mid = .ok (some c, rest))
    (hlt : rest.length < mid.length) : Walks step σ a ls c rest :=
  h.trans (.head hstep hlt (.refl c rest))

/-- A bound that the lexemes set is never reached. -/
theorem iterate (h : Walks step σ a ls b rest) (hstop : step b σ rest = .ok (none, rest)) {n : Nat}
    (hn : ls.length < n) : iterate step n a σ ls = .ok (b, rest) := by
  induction h generalizing n with
  | refl a ls =>
    obtain ⟨n, rfl⟩ := Nat.exists_eq_add_one_of_ne_zero (Nat.ne_of_gt (Nat.zero_lt_of_lt hn))
    simp [Reader.iterate, hstop]
  | head hstep hlt _ ih =>
    obtain ⟨n, rfl⟩ := Nat.exists_eq_add_one_of_ne_zero (Nat.ne_of_gt (Nat.zero_lt_of_lt hn))
    have hrest := ih hstop (Nat.lt_of_lt_of_le hlt (Nat.lt_succ_iff.mp hn))
    simp [Reader.iterate, hstep, hrest]

theorem loop (h : Walks step σ a ls b rest) (hstop : step b σ rest = .ok (none, rest)) :
    loop step a σ ls = .ok (b, rest) :=
  h.iterate hstop (Nat.lt_succ_self _)

end Walks

theorem loop_of_none {step : α → Reader (Option α)} {a : α} (h : step a σ ls = .ok (none, ls)) :
    loop step a σ ls = .ok (a, ls) :=
  (Walks.refl a ls).loop h

end Reader

/-! ## Tokens that come next -/

/-- The tokens that come next, and the lexemes behind them. -/
inductive Ahead (rest : List Lexeme) : List Token → List Lexeme → Prop
  | nil : Ahead rest [] rest
  | cons (t : Token) (glued : Bool) {ts : List Token} {ls : List Lexeme} (h : Ahead rest ts ls) :
      Ahead rest (t :: ts) (⟨t, glued⟩ :: ls)

namespace Ahead

variable {rest ls : List Lexeme} {t : Token} {ts us : List Token}

theorem of_map (h : ls.map Lexeme.token = ts) : Ahead [] ts ls := by
  induction ls generalizing ts with
  | nil => exact h ▸ .nil
  | cons l ls ih => exact h ▸ .cons l.token l.glued (ih rfl)

theorem exists_cons (h : Ahead rest (t :: ts) ls) :
    ∃ glued ls', ls = ⟨t, glued⟩ :: ls' ∧ Ahead rest ts ls' := by
  cases h with
  | cons t glued h => exact ⟨glued, _, rfl, h⟩

theorem exists_append (h : Ahead rest (ts ++ us) ls) :
    ∃ mid, Ahead mid ts ls ∧ Ahead rest us mid := by
  induction ts generalizing ls with
  | nil => exact ⟨ls, .nil, h⟩
  | cons t ts ih =>
    obtain ⟨glued, ls', rfl, hls'⟩ := h.exists_cons
    obtain ⟨mid, hmid, hrest⟩ := ih hls'
    exact ⟨mid, .cons t glued hmid, hrest⟩

theorem length_eq (h : Ahead rest ts ls) : ls.length = ts.length + rest.length := by
  induction h with
  | nil => simp
  | cons t glued h ih =>
    simp only [List.length_cons, ih]
    omega

theorem headToken_eq (h : Ahead rest (t :: ts) ls) : headToken ls = some t := by
  obtain ⟨glued, ls', rfl, -⟩ := h.exists_cons
  rfl

end Ahead

namespace Reader

variable {α β : Type} {σ : Setting} {ls rest : List Lexeme}

/-- What holds of the end and in front of each member holds in front of them all. -/
theorem ahead_members {tokens : α → List Token} {P : List Lexeme → Prop} {as : List α}
    (hmember : ∀ a ∈ as, ∀ ls mid, Ahead mid (tokens a) ls → P ls) (hrest : P rest)
    (h : Ahead rest (as.flatMap tokens) ls) : P ls := by
  cases as with
  | nil =>
    cases h
    exact hrest
  | cons a as =>
    obtain ⟨mid, ha, -⟩ := h.exists_append
    exact hmember a (by simp) ls mid ha

/-- The steps of a loop that collects members. Each is read where `P` holds of what is behind it,
as it does of the end and of the members themselves. -/
theorem walks_members {step : β → Reader (Option β)} (state : List α → β) (tokens : α → List Token)
    {P : List Lexeme → Prop} {as : List α}
    (hsome : ∀ acc, ∀ a ∈ as, ∀ ls mid, Ahead mid (tokens a) ls → P mid →
      step (state acc) σ ls = .ok (some (state (a :: acc)), mid))
    (hne : ∀ a ∈ as, tokens a ≠ [])
    (hmember : ∀ a ∈ as, ∀ ls mid, Ahead mid (tokens a) ls → P ls) (hrest : P rest)
    (h : Ahead rest (as.flatMap tokens) ls) (acc : List α) :
    Walks step σ (state acc) ls (state (as.reverse ++ acc)) rest := by
  induction as generalizing ls acc with
  | nil =>
    cases h
    exact .refl _ rest
  | cons a as ih =>
    simp only [List.forall_mem_cons] at hsome hne hmember
    obtain ⟨mid, ha, has⟩ := h.exists_append
    have hwalks := ih (fun acc b hb => (hsome acc).2 b hb) hne.2 hmember.2 has (a :: acc)
    have hlt : mid.length < ls.length := by
      have hpos := List.length_pos_iff.mpr hne.1
      rw [ha.length_eq]
      omega
    rw [List.reverse_cons, List.append_assoc]
    exact .head ((hsome acc).1 ls mid ha (ahead_members hmember.2 hrest has)) hlt hwalks

/-- A loop that collects members in a list. -/
theorem loop_members {step : List α → Reader (Option (List α))} (tokens : α → List Token)
    {P : List Lexeme → Prop} {as : List α}
    (hsome : ∀ acc, ∀ a ∈ as, ∀ ls mid, Ahead mid (tokens a) ls → P mid →
      step acc σ ls = .ok (some (a :: acc), mid))
    (hnone : ∀ acc, step acc σ rest = .ok (none, rest)) (hne : ∀ a ∈ as, tokens a ≠ [])
    (hmember : ∀ a ∈ as, ∀ ls mid, Ahead mid (tokens a) ls → P ls) (hrest : P rest)
    (h : Ahead rest (as.flatMap tokens) ls) : loop step [] σ ls = .ok (as.reverse, rest) := by
  have hwalks := walks_members (fun acc => acc) tokens hsome hne hmember hrest h []
  simpa using hwalks.loop (hnone _)

end Reader

end RowPolicy.Sql
