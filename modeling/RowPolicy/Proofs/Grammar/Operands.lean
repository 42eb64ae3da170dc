import RowPolicy.Proofs.Grammar.Plain
import RowPolicy.Proofs.Grammar.Steps

/-!
# Reading operands

A name that is none of the reserved words, a constant and an expression between parentheses are each
read as one operand, up to a token that ends operands. A word in front is tried as the name of a
type first, so each lemma says how that fails.
-/

namespace RowPolicy.Sql

/-! ## What follows -/

/-- Whether an operand in front of a token ends there. -/
def endsOperand : Option Token → Bool
  | none => true
  | some (.symbol s) => !([".", "(", "["].contains s)
  | some (.word _ _ k) => k != "COLLATE"
  | some _ => false

/-- The tokens that may follow a plain expression. -/
def followers : List (Option Token) :=
  none :: (plainOperators.map fun op => some op.1.token) ++
    [",", ")", ";"].map (fun s => some (.symbol s)) ++
    ["IS", "AS", "FROM", "WHERE", "JOIN", "INNER", "LEFT", "RIGHT", "FULL", "CROSS"].map
      (fun k => some (.capital k))

theorem endsOperand_of_mem_followers {t : Option Token} (h : t ∈ followers) :
    endsOperand t = true := by
  have hall : ∀ t ∈ followers, endsOperand t = true := by decide
  exact hall t h

theorem ne_symbol_of_endsOperand {t : Option Token} (h : endsOperand t = true) (s : String)
    (hs : s ∈ [".", "(", "["]) : t ≠ some (.symbol s) := by
  rintro rfl
  simp [endsOperand, hs] at h

@[simp] theorem Ident.keyword_token_ne_symbol (i : Ident) (s : String) : i.token ≠ .symbol s := by
  unfold Ident.token
  split <;> nofun

theorem Ident.exists_token (i : Ident) : ∃ k, i.token = .word i.value i.quote k := by
  unfold Ident.token
  split
  · rename_i h
    exact ⟨_, by rw [h]; rfl⟩
  · rename_i h
    exact ⟨_, by rw [h]; rfl⟩

@[simp] theorem Ident.isWord_token (i : Ident) : i.token.isWord = true := by
  unfold Ident.token
  split <;> rfl

namespace Reader

variable {r : Rules} {σ : Setting} {ls rest : List Lexeme} {i : Ident} {is : List Ident}

/-! ## Names -/

/-- A name behind a period. -/
def dotted (i : Ident) : List Token :=
  [.symbol ".", i.token]

theorem ident_apply (i : Ident) (glued : Bool) (ls : List Lexeme) :
    ident σ (⟨i.token, glued⟩ :: ls) = .ok (i, ls) := by
  obtain ⟨v, q⟩ := i
  cases q <;> rfl

theorem name_apply (h : Ahead rest (Name.tokens (i :: is)) ls)
    (hrest : headToken rest ≠ some (.symbol ".")) : name σ ls = .ok (i :: is, rest) := by
  obtain ⟨glued, ls', rfl, hls⟩ := h.exists_cons
  unfold name
  rw [bind_apply, ident_apply, ok_bind, bind_apply,
    loop_members (fun i : Ident => [.symbol ".", i.token]) (P := fun _ => True) ?_ ?_ ?_ ?_ trivial hls]
  · simp
  · intro acc i _ ls mid hi _
    obtain _ | ⟨_, _, _ | ⟨_, _, _ | _⟩⟩ := hi
    simp [ident_apply]
  · simp [hrest]
  · simp
  · simp

/-! ## Types -/

/-- A word that begins no type is read as a name, and no constant follows it. -/
theorem compositeType_apply {inner : Reader TypeReading} {k : String} (hk : k ∉ typeWords) :
    compositeType r inner k σ ls = .ok (none, ls) := by
  unfold compositeType
  split
  case h_7 => rfl
  all_goals exact absurd (by decide) hk

theorem scalarType_apply {whole : Reader String} {k : String} (hk : k ∉ typeWords) :
    scalarType whole k σ ls = .ok (none, ls) := by
  simp only [typeWords, List.mem_append, not_or] at hk
  obtain ⟨⟨⟨hplain, hinteger⟩, hmixed⟩, hscalar⟩ := hk
  have hlookup : mixedTypes.lookup k = none := by
    rw [List.lookup_eq_none_iff]
    intro p hp
    rw [bne_iff_ne]
    rintro rfl
    exact hmixed (List.mem_map_of_mem hp)
  unfold scalarType
  rw [if_neg (by simpa using hplain), if_neg (by simpa using hinteger), hlookup]
  dsimp only
  split
  all_goals first | rfl | exact absurd (by decide) hscalar

theorem namedType_apply (h : Ahead rest (Name.tokens (i :: is)) ls)
    (hrest : endsOperand (headToken rest) = true) :
    namedType σ ls = .ok (Name.render (i :: is), rest) := by
  simp [namedType, nameText, name_apply h (ne_symbol_of_endsOperand hrest "." (by simp)),
    ne_symbol_of_endsOperand hrest "(" (by simp)]

theorem arraySuffix_apply (t : TypeReading) (hls : endsOperand (headToken ls) = true) :
    arraySuffix t σ ls = .ok (t, ls) := by
  have hstop := ne_symbol_of_endsOperand hls "[" (by simp)
  simp [arraySuffix, loop_of_none, hstop]

theorem typedConstant_of_name (h : Ahead rest (Name.tokens (i :: is)) ls)
    (hi : i.token.keyword ∉ typeWords) (hrest : endsOperand (headToken rest) = true) :
    typedConstant r σ ls = .error (.unexpected "a constant" (headToken rest)) := by
  obtain ⟨glued, ls', rfl, -⟩ := h.exists_cons
  simp [typedConstant, typeReading, innerType, typeReadingWithin, compositeType_apply hi,
    scalarType_apply hi, namedType_apply h hrest, arraySuffix_apply _ hrest]

theorem typedConstant_of_noWord (h : (headToken ls).any Token.isWord = false) :
    typedConstant r σ ls = .error (.unexpected "a data type name" (headToken ls)) := by
  cases ls with
  | nil => simp [typedConstant, typeReading, innerType, typeReadingWithin]
  | cons l ls =>
    have hword : l.token.isWord = false := h
    simp [typedConstant, typeReading, innerType, typeReadingWithin, hword]

/-! ## Operands -/

theorem specialOperand_apply {k : String} (w : Ident) (hk : k ∉ operandWords) :
    specialOperand r w k σ ls = .ok (none, ls) := by
  simp only [operandWords, List.mem_append, not_or] at hk
  obtain ⟨hspecial, hgeometric⟩ := hk
  have hlookup : geometricTypes.lookup k = none := by
    rw [List.lookup_eq_none_iff]
    intro p hp
    rw [bne_iff_ne]
    rintro rfl
    exact hgeometric (List.mem_map_of_mem hp)
  unfold specialOperand
  rw [bind_apply, read_apply, ok_bind, bind_apply, read_apply, ok_bind]
  split
  case h_35 => rw [hlookup]; rfl
  all_goals exact absurd (by decide) hspecial

theorem outerJoinMarkNext_apply (h : headToken ls ≠ some (.symbol "(")) :
    outerJoinMarkNext σ ls = .ok (false, ls) := by
  cases ls with
  | nil => simp [outerJoinMarkNext]
  | cons l ls =>
    have hl : l.token ≠ .symbol "(" := by simpa using h
    simp [outerJoinMarkNext, hl]

theorem wordOperand_apply (w : Ident)
    (h : endsOperand (headToken ls) = true ∨ headToken ls = some (.symbol ".")) :
    wordOperand r w σ ls = .ok (.column [w], ls) := by
  unfold wordOperand
  rw [bind_apply, peek_apply, ok_bind]
  dsimp only
  generalize headToken ls = t at h
  split
  · simp [endsOperand] at h
  · simp [endsOperand] at h
  · rfl

theorem operandOfWord_apply (w : Ident) {k : String} (hk : k ∉ operandWords)
    (h : endsOperand (headToken ls) = true ∨ headToken ls = some (.symbol ".")) :
    operandOfWord r w k σ ls = .ok ((.column [w], false), ls) := by
  simp [operandOfWord, specialOperand_apply w hk, wordOperand_apply w h]

theorem headKeyword_ne_collate
    (h : endsOperand (headToken ls) = true ∨ headToken ls = some (.symbol ".")) :
    headKeyword ls ≠ "COLLATE" := by
  unfold headKeyword
  generalize headToken ls = t at h
  rintro hcollate
  obtain h | rfl := h
  · cases t with
    | none => simp at hcollate
    | some t =>
      cases t with
      | word v q k =>
        obtain rfl : k = "COLLATE" := hcollate
        simp [endsOperand] at h
      | _ => simp [Token.keyword] at hcollate
  · simp [Token.keyword] at hcollate

theorem operand_of_name {glued : Bool} {mid : List Lexeme}
    (h : Ahead rest (Name.tokens (i :: is)) (⟨i.token, glued⟩ :: mid))
    (hi : i.token.keyword ∉ reservedWords) (hrest : endsOperand (headToken rest) = true) :
    operand r σ (⟨i.token, glued⟩ :: mid) = .ok (.column [i], mid) := by
  simp only [reservedWords, List.mem_append, not_or] at hi
  obtain ⟨⟨hoperand, htype⟩, -⟩ := hi
  have hmid : endsOperand (headToken mid) = true ∨ headToken mid = some (.symbol ".") := by
    obtain _ | ⟨_, _, h⟩ := h
    cases is with
    | nil =>
      cases h
      exact .inl hrest
    | cons i' is =>
      obtain ⟨mid', hi', -⟩ := h.exists_append
      exact .inr hi'.headToken_eq
  have htyped := attempt_of_error (typedConstant_of_name (r := r) (σ := σ) h htype hrest) (by simp)
  obtain ⟨k, hk⟩ := i.exists_token
  rw [hk] at htyped hoperand ⊢
  simp [operand, htyped, operandOfWord_apply (k := k) _ hoperand hmid,
    headKeyword_ne_collate hmid]

theorem constant_text {s : String} {glued : Bool} (hls : endsOperand (headToken ls) = true) :
    constant σ (⟨.string .plain s, glued⟩ :: ls) = .ok (.text s, ls) := by
  have hstop : adjacentStrings s σ ls = .ok (s, ls) := by
    unfold adjacentStrings
    rw [bind_apply, feature_apply, ok_bind, ite_apply, loop_of_none]
    · simp
    · rw [bind_apply, peek_apply, ok_bind]
      dsimp only
      generalize headToken ls = t at hls
      split
      · simp [endsOperand] at hls
      · simp [endsOperand] at hls
      · rfl
  simp [constant, hstop, StringKind.literal]

theorem constant_number {ds : String} {glued : Bool} :
    constant σ (⟨.number ds false, glued⟩ :: ls) = .ok (.number ds, ls) := by
  simp [constant]

theorem token_plain {v k : String} (h : Text.keywordForm v = k) :
    (Ident.plain v).token = .word v none k := by
  rw [← h]
  rfl

/-- A word that is a constant. -/
theorem operand_of_constantWord {v k : String} {l : Literal} {glued : Bool}
    (hv : Text.keywordForm v = k) (hk : k ∉ typeWords)
    (hspecial : specialOperand r ⟨v, none⟩ k σ ls = .ok (some (.literal l), ls))
    (hls : endsOperand (headToken ls) = true) :
    operand r σ (⟨.word v none k, glued⟩ :: ls) = .ok (.literal l, ls) := by
  have htoken := token_plain hv
  have htyped : attempt (typedConstant r) σ (⟨.word v none k, glued⟩ :: ls) =
      .ok (none, ⟨.word v none k, glued⟩ :: ls) := by
    have hahead : Ahead ls (Name.tokens [Ident.plain v]) (⟨.word v none k, glued⟩ :: ls) := by
      rw [← htoken]
      exact .cons _ glued .nil
    exact attempt_of_error (typedConstant_of_name hahead (by rwa [htoken]) hls) (by simp)
  simp [operand, htyped, operandOfWord, hspecial, headKeyword_ne_collate (.inl hls)]

theorem attempt_typedConstant_of_noWord {t : Token} {glued : Bool} (ht : t.isWord = false) :
    attempt (typedConstant r) σ (⟨t, glued⟩ :: ls) = .ok (none, ⟨t, glued⟩ :: ls) :=
  attempt_of_error (typedConstant_of_noWord ht) (by simp)

theorem operand_of_text {s : String} {glued : Bool} (hls : endsOperand (headToken ls) = true) :
    operand r σ (⟨.string .plain s, glued⟩ :: ls) = .ok (.literal (.text s), ls) := by
  have htyped : attempt (typedConstant r) σ (⟨.string .plain s, glued⟩ :: ls) = .ok (none, _) :=
    attempt_typedConstant_of_noWord rfl
  simp [operand, htyped, constant_text hls, headKeyword_ne_collate (.inl hls)]

theorem operand_of_number {ds : String} {glued : Bool} (hls : endsOperand (headToken ls) = true) :
    operand r σ (⟨.number ds false, glued⟩ :: ls) = .ok (.literal (.number ds), ls) := by
  have htyped : attempt (typedConstant r) σ (⟨.number ds false, glued⟩ :: ls) = .ok (none, _) :=
    attempt_typedConstant_of_noWord rfl
  simp [operand, htyped, constant_number, headKeyword_ne_collate (.inl hls)]

/-- What stands between parentheses is read by the rules inside of these. -/
theorem operand_of_nested {e : Expr} {glued glued' : Bool} {inner : List Lexeme}
    (hinner : headKeyword inner ∉ ["SELECT", "WITH"])
    (hread : r.expr 0 σ inner = .ok (e, ⟨.symbol ")", glued'⟩ :: ls))
    (hls : endsOperand (headToken ls) = true) :
    operand r σ (⟨.symbol "(", glued⟩ :: inner) = .ok (.nested e, ls) := by
  have hquery : queryNext σ inner = .ok (false, inner) := by
    simpa [queryNext] using hinner
  have hlist : commaList (r.expr 0) σ inner = .ok ([e], ⟨.symbol ")", glued'⟩ :: ls) := by
    simp [commaList, hread, loop_of_none]
  have htyped : attempt (typedConstant r) σ (⟨.symbol "(", glued⟩ :: inner) = .ok (none, _) :=
    attempt_typedConstant_of_noWord rfl
  simp [operand, htyped, operandOfSymbol, parenthesised, hquery, hlist,
    headKeyword_ne_collate (.inl hls)]

theorem operand_of_literal {l : Literal}
    (hplain : l.isPlain σ.dialect = true)
    (h : Ahead rest l.tokens ls) (hrest : endsOperand (headToken rest) = true) :
    operand r σ ls = .ok (.literal l, rest) := by
  cases l with
  | null =>
    obtain _ | ⟨_, _, _ | _⟩ := h
    exact operand_of_constantWord (by decide +kernel) (by decide) rfl hrest
  | boolean b =>
    have hfeature : σ.dialect.features.booleanLiterals = true := hplain
    cases b <;> obtain _ | ⟨_, _, _ | _⟩ := h <;>
      exact operand_of_constantWord (by decide +kernel) (by decide)
        (by simp [specialOperand, hfeature]) hrest
  | number ds =>
    obtain _ | ⟨_, _, _ | _⟩ := h
    exact operand_of_number hrest
  | text s =>
    obtain _ | ⟨_, _, _ | _⟩ := h
    exact operand_of_text hrest
  | spelled s => cases hplain

end Reader
end RowPolicy.Sql
