import RowPolicy.CommandLine
import RowPolicy.Proofs.Lexing.TextConstants
import RowPolicy.Proofs.Numbers.Shortest
import RowPolicy.Proofs.Outcomes

/-!
# Integers on the command line

A value that is a numeral becomes a constant of a statement: an integer if it fits in 64 bits, the
nearest number of double precision if there is one, and else text (`Value.parseLoose_numeral`). What
is written for it is sure to be a numeral of the same integer in the first case only. In the second
it is one of some integer with the same nearest number, and other integers share it; in the third it
stands between quotes (`Value.written_numeral`, `Value.not_written_apart`).
-/

namespace RowPolicy

/-! ## Numerals -/

/-- One decimal digit or more. -/
structure Digits (ds : List Char) : Prop where
  ne_nil : ds ≠ []
  isDigit : ∀ c ∈ ds, c.isDigit = true

/-- An integer by its sign and its absolute value. -/
def signed (negative : Bool) (n : Nat) : Int :=
  if negative then -n else n

/-- A text is a numeral of an integer: digits behind a sign or none, of any length. -/
inductive Numeral : String → Int → Prop where
  | unsigned {ds : List Char} : Digits ds →
      Numeral (String.ofList ds) (Nat.ofDigitChars 10 ds 0)
  | plus {ds : List Char} : Digits ds →
      Numeral (String.ofList ('+' :: ds)) (Nat.ofDigitChars 10 ds 0)
  | minus {ds : List Char} : Digits ds →
      Numeral (String.ofList ('-' :: ds)) (-Nat.ofDigitChars 10 ds 0)

theorem splitSign_digits {ds : List Char} (h : Digits ds) :
    Double.splitSign ds = (false, ds) := by
  cases ds with
  | nil => rfl
  | cons c cs =>
    have hc : c.isDigit = true := h.isDigit c List.mem_cons_self
    unfold Double.splitSign
    split
    · rename_i heq
      cases heq
      exact absurd hc (by decide)
    · rename_i heq
      cases heq
      exact absurd hc (by decide)
    · rfl

/-- A numeral is split into its sign and its digits. -/
theorem Numeral.split {s : String} {n : Int} (h : Numeral s n) :
    ∃ negative ds, Double.splitSign s.toList = (negative, ds) ∧ Digits ds ∧
      n = signed negative (Nat.ofDigitChars 10 ds 0) := by
  cases h with
  | unsigned h => exact ⟨false, _, by rw [String.toList_ofList, splitSign_digits h], h, rfl⟩
  | plus h => exact ⟨false, _, by rw [String.toList_ofList]; rfl, h, rfl⟩
  | minus h => exact ⟨true, _, by rw [String.toList_ofList]; rfl, h, rfl⟩

/-- A text is a numeral of one integer at most. -/
theorem Numeral.unique {s : String} {m n : Int} (hm : Numeral s m) (hn : Numeral s n) : m = n := by
  obtain ⟨negative, ds, hsplit, -, rfl⟩ := hm.split
  obtain ⟨negative', ds', hsplit', -, rfl⟩ := hn.split
  cases hsplit.symm.trans hsplit'
  rfl

theorem digits_append {ds es : List Char} (hd : Digits ds) (he : ∀ c ∈ es, c.isDigit = true) :
    Digits (ds ++ es) where
  ne_nil := fun h => hd.ne_nil (List.append_eq_nil_iff.mp h).1
  isDigit := fun c hc => (List.mem_append.mp hc).elim (hd.isDigit c) (he c)

theorem digits_toDigits (n : Nat) : Digits (Nat.toDigits 10 n) where
  ne_nil := Nat.toDigits_ne_nil
  isDigit := fun _ hc => Nat.isDigit_of_mem_toDigits (by decide) (by decide) hc

/-- Digits behind the sign that a negative number has are a numeral. -/
theorem numeral_of_digits (negative : Bool) {ds : List Char} (h : Digits ds) :
    Numeral ((if negative then "-" else "") ++ String.ofList ds)
      (signed negative (Nat.ofDigitChars 10 ds 0)) := by
  cases negative with
  | false =>
    rw [if_neg (by decide), String.empty_append]
    exact .unsigned h
  | true =>
    have hminus : "-" ++ String.ofList ds = String.ofList ('-' :: ds) := by
      rw [← List.singleton_append, String.ofList_append]
    rw [if_pos rfl, hminus]
    exact .minus h

/-- An integer is written as a numeral of it. -/
theorem numeral_toString (n : Int) : Numeral (toString n) n := by
  have hrepr (m : Nat) : m.repr = String.ofList (Nat.toDigits 10 m) :=
    Nat.toString_eq_repr.symm.trans Nat.toString_eq_ofList_toDigits
  rw [Int.toString_eq_repr, Int.repr_eq_if]
  split
  · rename_i hn
    have hnumeral := numeral_of_digits false (digits_toDigits n.toNat)
    rw [Nat.ofDigitChars_ten_toDigits, ← hrepr, if_neg (by decide), String.empty_append] at hnumeral
    rwa [signed, if_neg (by decide), Int.toNat_of_nonneg hn] at hnumeral
  · rename_i hn
    have hnumeral := numeral_of_digits true (digits_toDigits (-n).toNat)
    rw [Nat.ofDigitChars_ten_toDigits, ← hrepr, if_pos rfl] at hnumeral
    rwa [signed, if_pos rfl, Int.toNat_of_nonneg (by omega), Int.neg_neg] at hnumeral

theorem digitsValue_eq (ds : List Char) : Double.digitsValue ds = Nat.ofDigitChars 10 ds 0 := by
  simp only [Double.digitsValue, Nat.ofDigitChars_eq_foldl, Nat.mul_comm]

/-! ## Reading a numeral -/

/-- A numeral begins with a sign or a digit. -/
theorem Numeral.exists_head {s : String} {n : Int} (h : Numeral s n) :
    ∃ c cs, s.toList = c :: cs ∧ (c == '-' || c == '+' || c.isDigit) = true := by
  cases h with
  | @unsigned ds h =>
    obtain ⟨c, cs, rfl⟩ := List.exists_cons_of_ne_nil h.ne_nil
    exact ⟨c, cs, String.toList_ofList, by simp [h.isDigit c List.mem_cons_self]⟩
  | plus h => exact ⟨'+', _, String.toList_ofList, rfl⟩
  | minus h => exact ⟨'-', _, String.toList_ofList, rfl⟩

/-- No word that begins with a letter is a numeral, in any letter case. -/
theorem Numeral.fold_ne {s t : String} {n : Int} (h : Numeral s n) {c : Char} {cs : List Char}
    (ht : t.toList = c :: cs) (hc : c.isLower = true) : Text.fold s ≠ t := by
  obtain ⟨d, ds, hs, hd⟩ := h.exists_head
  intro heq
  have htoLower : d.toLower = c := by
    rw [← heq, Text.fold, String.toList_ofList, hs, List.map_cons] at ht
    exact (List.cons.inj ht).1
  simp only [Bool.or_eq_true, beq_iff_eq] at hd
  rcases hd with (rfl | rfl) | hd
  · exact absurd (htoLower ▸ hc) (by decide)
  · exact absurd (htoLower ▸ hc) (by decide)
  · have hupper : ¬d.isUpper = true := by grind [Char.isDigit, Char.isUpper]
    rw [Char.toLower_eq_of_not_isUpper hupper] at htoLower
    subst htoLower
    grind [Char.isDigit, Char.isLower]

theorem Value.integerOf?_numeral {raw : String} {n : Int} (h : Numeral raw n) :
    integerOf? raw = if isWord n then some n else none := by
  obtain ⟨negative, ds, hsplit, hdigits, rfl⟩ := h.split
  have hempty : ds.isEmpty = false := List.isEmpty_eq_false_iff.mpr hdigits.ne_nil
  have hall : ds.all Char.isDigit = true := List.all_eq_true.mpr hdigits.isDigit
  simp only [integerOf?, hsplit, hempty, hall, digitsValue_eq]
  rfl

theorem natAbs_signed (negative : Bool) (n : Nat) : (signed negative n).natAbs = n := by
  cases negative
  · exact Int.natAbs_natCast n
  · exact (Int.natAbs_neg n).trans (Int.natAbs_natCast n)

theorem signed_neg_iff {negative : Bool} {n : Nat} (h : n ≠ 0) :
    signed negative n < 0 ↔ negative = true := by
  cases negative
  · exact iff_of_false (Int.not_lt.mpr (Int.natCast_nonneg n)) Bool.false_ne_true
  · exact iff_of_true (Int.neg_neg_of_pos (Int.natCast_pos.mpr (Nat.pos_of_ne_zero h))) rfl

/-- The number of double precision that is nearest to an integer, unless that is too large. -/
def Double.ofInt? (n : Int) : Option Double :=
  ofRatio? (n < 0) n.natAbs 1

/-- A numeral that is not zero is read as the number nearest to its integer. -/
theorem Double.ofText?_numeral {raw : String} {n : Int} (h : Numeral raw n) (hn : n ≠ 0) :
    ofText? raw = ofInt? n := by
  obtain ⟨negative, ds, hsplit, hdigits, rfl⟩ := h.split
  have htake : ds.takeWhile Char.isDigit = ds := List.takeWhile_eq_self_iff.mpr hdigits.isDigit
  have hdrop : ds.dropWhile Char.isDigit = [] := List.dropWhile_eq_nil_iff.mpr hdigits.isDigit
  have hempty : ds.isEmpty = false := List.isEmpty_eq_false_iff.mpr hdigits.ne_nil
  have hofText : ofText? raw = ofDecimal? negative (Nat.ofDigitChars 10 ds 0) 0 := by
    simp only [ofText?, hsplit, htake, hdrop, hempty, exponentOf?, List.append_nil, digitsValue_eq,
      Bool.false_and]
    rfl
  have hpos : Nat.ofDigitChars 10 ds 0 ≠ 0 := by
    rw [← Int.natAbs_ne_zero, natAbs_signed] at hn
    exact hn
  rw [hofText, ofDecimal?_zero, ofInt?, natAbs_signed]
  congr 1
  rw [Bool.eq_iff_iff, decide_eq_true_eq, signed_neg_iff hpos]

/-- The integers that fit in 64 bits, as bounds. -/
theorem Value.isWord_iff {n : Int} : isWord n = true ↔ -2 ^ 63 ≤ n ∧ n < 2 ^ 63 := by
  rw [isWord, Bool.and_eq_true, decide_eq_true_eq, decide_eq_true_eq, Int64.toInt_minValue,
    Int64.toInt_maxValue]
  omega

/-- A numeral is read as an integer if that fits, as the nearest number of double precision if
there is one, and else as text. -/
theorem Value.parseLoose_numeral {raw : String} {n : Int} (h : Numeral raw n) :
    parseLoose raw =
      if isWord n then integer n
      else (Double.ofInt? n).elim (text raw) real := by
  have hnull : Text.sameName raw "null" = false := by
    rw [Bool.eq_false_iff, ne_eq, Text.sameName_iff]
    exact h.fold_ne (c := 'n') rfl rfl
  have htrue : (raw == "true") = false := by
    rw [beq_eq_false_iff_ne]
    rintro rfl
    exact h.fold_ne (c := 't') rfl rfl rfl
  have hfalse : (raw == "false") = false := by
    rw [beq_eq_false_iff_ne]
    rintro rfl
    exact h.fold_ne (c := 'f') rfl rfl rfl
  simp only [parseLoose, hnull, htrue, hfalse, integerOf?_numeral h, Bool.false_eq_true, if_false]
  by_cases hn : isWord n = true
  · rw [if_pos hn, if_pos hn]
  · have hzero : n ≠ 0 := by rintro rfl; exact hn rfl
    simp only [if_neg hn, Double.ofText?_numeral h hzero]
    cases Double.ofInt? n <;> rfl

/-! ## The nearest number -/

/-- The value of a number, in units of `2 ^ -1074`. -/
def Double.value (x : Double) : Int :=
  signed x.negative (units x.magnitude)

/-- No number of double precision is nearer to an integer. -/
def Double.IsNearest (x : Double) (n : Int) : Prop :=
  ∀ y : Double, (n * 2 ^ 1074 - x.value).natAbs ≤ (n * 2 ^ 1074 - y.value).natAbs

theorem mul_two_pow_eq_signed (n : Int) (s : Nat) :
    n * 2 ^ s = signed (decide (n < 0)) (n.natAbs <<< s) := by
  rw [Nat.shiftLeft_eq, signed]
  push_cast
  split
  · rename_i hn
    rw [abs_of_neg (of_decide_eq_true hn)]
    ring
  · rename_i hn
    rw [abs_of_nonneg (by simpa using hn)]

theorem Double.isNearest_of_ofInt? {n : Int} {x : Double} (hx : ofInt? n = some x) :
    x.IsNearest n := by
  intro y
  have hzero : units 0 = 0 := by decide
  unfold ofInt? ofRatio? at hx
  split at hx
  · obtain rfl := Option.some.inj hx
    have hy := dist_nearest_le n.natAbs y.magnitude
    have hnone := dist_nearest_le n.natAbs 0
    rw [mul_two_pow_eq_signed, value, value]
    rw [hzero] at hnone
    simp only [Nat.dist] at hy hnone
    generalize n.natAbs <<< 1074 = a at hy hnone ⊢
    generalize units (nearest n.natAbs 1) = u at hy hnone ⊢
    generalize units y.magnitude = v at hy ⊢
    -- a number of the other sign is no nearer than zero is
    cases decide (n < 0) <;> cases y.negative <;>
      simp only [signed, if_true, if_false, Bool.false_eq_true] <;> omega
  · cases hx

/-! ## Large integers -/

theorem Double.ofInt?_eq_none_iff {n : Int} : ofInt? n = none ↔ tooLarge ≤ n.natAbs := by
  rw [ofInt?, ofRatio?, ← Nat.not_lt, ← nearest_lt_overflow_iff]
  split
  · rename_i h
    exact iff_of_false (by simp) (not_not.mpr h)
  · rename_i h
    exact iff_of_true rfl h

theorem Double.lt_tooLarge_of_ofInt? {n : Int} {x : Double} (hx : ofInt? n = some x) :
    n.natAbs < tooLarge := by
  rw [← Nat.not_le, ← ofInt?_eq_none_iff, hx]
  exact Option.some_ne_none x

/-- The number nearest to an integer of more than 64 bits is large. -/
theorem Double.large_of_ofInt? {n : Int} {x : Double} (hx : ofInt? n = some x)
    (hn : Value.isWord n = false) : Large x.magnitude := by
  have hsmall := lt_tooLarge_of_ofInt? hx
  have hlow : 2 ^ 63 ≤ n.natAbs := by
    rw [Bool.eq_false_iff, ne_eq, Value.isWord_iff] at hn
    omega
  rw [ofInt?, ofRatio?, dif_pos (nearest_lt_overflow_iff.mpr hsmall)] at hx
  obtain rfl := Option.some.inj hx
  exact large_nearest hlow hsmall

/-- An integer beyond 64 bits whose absolute value is rounded to that of a number, and that has its
sign, is rounded to the number. -/
theorem Double.ofInt?_signed {x : Double} {d : Nat} (hlarge : 2 ^ 63 < d)
    (hd : nearest d 1 = x.magnitude) :
    Value.isWord (signed x.negative d) = false ∧ ofInt? (signed x.negative d) = some x := by
  have habs := natAbs_signed x.negative d
  have hsign : decide (signed x.negative d < 0) = x.negative := by
    rw [Bool.eq_iff_iff, decide_eq_true_eq, signed_neg_iff (by omega)]
  constructor
  · rw [Bool.eq_false_iff, ne_eq, Value.isWord_iff]
    omega
  · obtain ⟨negative, magnitude, hfinite⟩ := x
    subst hd
    rw [ofInt?, ofRatio?, habs, dif_pos hfinite, hsign]

/-- The sign and the digits of a large number are a numeral of an integer that is rounded to it. -/
theorem Double.exists_numeral_plain {x : Double} (h : Large x.magnitude) :
    ∃ m, Numeral x.plain m ∧ Value.isWord m = false ∧ ofInt? m = some x := by
  obtain ⟨d, p, hprinted, hd⟩ := h.exists_shortest
  refine ⟨signed x.negative (d * 10 ^ p), ?_, ofInt?_signed (h.lt_of_shortest hprinted hd) hd⟩
  -- the zeros behind the digits are the power of ten that these count
  have hzeros : ∀ c ∈ List.replicate p '0', c.isDigit = true := by
    intro c hc
    rw [List.eq_of_mem_replicate hc]
    rfl
  have hnumeral := numeral_of_digits x.negative (digits_append (digits_toDigits d) hzeros)
  rw [Nat.ofDigitChars_append, Nat.ofDigitChars_ten_toDigits, Nat.ofDigitChars_replicate_zero,
    Nat.mul_comm, String.ofList_append] at hnumeral
  simp only [plain, hprinted]
  rw [if_pos (Int.natCast_nonneg p), Int.toNat_natCast, Nat.toString_eq_ofList_toDigits]
  exact hnumeral

/-- A large number is the nearest one to more than one integer. -/
theorem Double.exists_ne_ofInt? {x : Double} (h : Large x.magnitude) (n : Int) :
    ∃ m, m ≠ n ∧ Value.isWord m = false ∧ ofInt? m = some x := by
  obtain ⟨d, hlarge, hd, hnext⟩ := h.exists_two
  by_cases hn : signed x.negative d = n
  · refine ⟨signed x.negative (d + 1), ?_, ofInt?_signed (by omega) hnext⟩
    rintro rfl
    have := congrArg Int.natAbs hn
    rw [natAbs_signed, natAbs_signed] at this
    omega
  · exact ⟨signed x.negative d, hn, ofInt?_signed hlarge hd⟩

/-! ## What is written -/

/-- What is written into a statement for a value of the command line. -/
def Value.written (raw : String) : String :=
  (Sql.Literal.ofValue (parseLoose raw)).render

/-- An integer that fits in 64 bits is written as it is. -/
theorem Value.written_of_isWord {raw : String} {n : Int} (h : Numeral raw n)
    (hn : isWord n = true) : written raw = toString n := by
  rw [written, parseLoose_numeral h, if_pos hn]
  rfl

/-- Any other integer is written as the nearest number. -/
theorem Value.written_of_ofInt? {raw : String} {n : Int} (h : Numeral raw n)
    (hn : isWord n = false) {x : Double} (hx : Double.ofInt? n = some x) :
    written raw = x.plain := by
  rw [written, parseLoose_numeral h, if_neg (by simp [hn]), hx]
  rfl

/-- A content without quotes stands between quotes as it is. -/
theorem quoteContent_of_notMem {cs : List Char} (h : '\'' ∉ cs) (escaped : Bool) :
    Sql.quoteContent '\'' escaped cs = cs := by
  induction cs generalizing escaped with
  | nil => rfl
  | cons c cs ih =>
    obtain ⟨hc, hcs⟩ := not_or.mp (mt List.mem_cons.mpr h)
    rw [Sql.quoteContent_cons (Ne.symm hc), ih hcs]

theorem Numeral.quote_notMem {s : String} {n : Int} (h : Numeral s n) : '\'' ∉ s.toList := by
  have hdigits {ds : List Char} (hd : Digits ds) : '\'' ∉ ds := fun hc =>
    absurd (hd.isDigit _ hc) (by decide)
  cases h with
  | unsigned hd => simpa using hdigits hd
  | plus hd => simpa using hdigits hd
  | minus hd => simpa using hdigits hd

/-- An integer that is too large is written between quotes. -/
theorem Value.written_of_tooLarge {raw : String} {n : Int} (h : Numeral raw n)
    (hn : Double.tooLarge ≤ n.natAbs) : written raw = "'" ++ raw ++ "'" := by
  have hword : ¬isWord n = true := by
    rw [Value.isWord_iff]
    have : 2 ^ 63 < Double.tooLarge := by decide +kernel
    omega
  rw [written, parseLoose_numeral h, if_neg hword, Double.ofInt?_eq_none_iff.mpr hn]
  change Sql.quoted '\'' raw = _
  rw [Sql.quoted, quoteContent_of_notMem h.quote_notMem]
  apply String.toList_inj.mp
  simp

/-- What stands between quotes is no numeral. -/
theorem not_numeral_quoted {s : String} {n : Int} : ¬Numeral ("'" ++ s ++ "'") n := by
  intro h
  refine h.quote_notMem ?_
  simp

/-- Behind a key and an equals sign, an argument gives the value that the rest spells. -/
theorem CommandLine.keyValue_append {key raw : String} (hkey : '=' ∉ key.toList)
    (htrim : Text.trim key ≠ "") :
    keyValue (key ++ "=" ++ raw) = .ok (Text.trim key, .parseLoose raw) := by
  have hall : ∀ c ∈ key.toList, (c != '=') = true := by
    intro c hc
    rw [bne_iff_ne]
    rintro rfl
    exact hkey hc
  have hlist : (key ++ "=" ++ raw).toList = key.toList ++ '=' :: raw.toList := by simp
  have hdrop : (key ++ "=" ++ raw).toList.dropWhile (· != '=') = '=' :: raw.toList := by
    rw [hlist, List.dropWhile_append_of_pos hall]
    rfl
  have htake : (key ++ "=" ++ raw).toList.takeWhile (· != '=') = key.toList := by
    rw [hlist, List.takeWhile_append_of_pos hall]
    exact List.append_nil _
  simp only [keyValue, hdrop, htake, String.ofList_toList]
  exact if_neg (by simpa using htrim)

/-- What is written for a numeral, by the size of its integer. -/
inductive Value.Written (raw : String) (n : Int) : Prop where
  /-- an integer that fits in 64 bits, as it is -/
  | word (hn : isWord n = true) (h : written raw = toString n)
  /-- the nearest number, by a numeral of an integer that is rounded to it as well -/
  | nearest (x : Double) (m : Int) (hn : isWord n = false) (hx : Double.ofInt? n = some x)
    (h : written raw = x.plain) (hm : Numeral x.plain m) (hword : isWord m = false)
    (hround : Double.ofInt? m = some x)
  /-- text -/
  | text (h : written raw = "'" ++ raw ++ "'")

theorem Numeral.written {raw : String} {n : Int} (h : Numeral raw n) : Value.Written raw n := by
  by_cases hn : Value.isWord n = true
  · exact .word hn (Value.written_of_isWord h hn)
  · have hn := Bool.eq_false_iff.mpr hn
    cases hx : Double.ofInt? n with
    | some x =>
      obtain ⟨m, hm, hword, hround⟩ := Double.exists_numeral_plain (Double.large_of_ofInt? hx hn)
      exact .nearest x m hn hx (Value.written_of_ofInt? h hn hx) hm hword hround
    | none =>
      exact .text (Value.written_of_tooLarge h (Double.ofInt?_eq_none_iff.mp hx))

/-- When the same is written for two numerals. -/
theorem Numeral.written_eq_iff {raw raw' : String} {n n' : Int} (h : Numeral raw n)
    (h' : Numeral raw' n') :
    Value.written raw' = Value.written raw ↔
      raw' = raw ∨ (Value.isWord n = true ∧ n' = n) ∨
        (Value.isWord n = false ∧ Value.isWord n' = false ∧ n.natAbs < Double.tooLarge ∧
          Double.ofInt? n' = Double.ofInt? n) := by
  constructor
  · -- What is written is a numeral of one integer at most, and that tells the cases apart.
    intro heq
    cases h.written with
    | word hn hw =>
      have hnumeral : Numeral (Value.written raw') n := heq ▸ hw ▸ numeral_toString n
      cases h'.written with
      | word hn' hw' =>
        rw [hw'] at hnumeral
        exact .inr (.inl ⟨hn, (numeral_toString n').unique hnumeral⟩)
      | nearest x m hn' hx hw' hm hword hround =>
        rw [hw'] at hnumeral
        rw [hm.unique hnumeral, hn] at hword
        cases hword
      | text hw' => exact absurd (hw' ▸ hnumeral) not_numeral_quoted
    | nearest x m hn hx hw hm hword hround =>
      have hnumeral : Numeral (Value.written raw') m := heq ▸ hw ▸ hm
      cases h'.written with
      | word hn' hw' =>
        rw [hw'] at hnumeral
        rw [← (numeral_toString n').unique hnumeral, hn'] at hword
        cases hword
      | nearest x' m' hn' hx' hw' hm' hword' hround' =>
        rw [hw'] at hnumeral
        obtain rfl := hm'.unique hnumeral
        exact .inr (.inr ⟨hn, hn', Double.lt_tooLarge_of_ofInt? hx, by
          rw [hx, hx', ← hround, hround']⟩)
      | text hw' => exact absurd (hw' ▸ hnumeral) not_numeral_quoted
    | text hw =>
      have hquoted (m : Int) : ¬Numeral (Value.written raw') m := heq ▸ hw ▸ not_numeral_quoted
      cases h'.written with
      | word hn' hw' => exact absurd (hw' ▸ numeral_toString n') (hquoted n')
      | nearest x m hn' hx hw' hm => exact absurd (hw' ▸ hm) (hquoted m)
      | text hw' =>
        rw [hw, hw', String.append_left_inj, String.append_right_inj] at heq
        exact .inl heq
  · rintro (rfl | ⟨hn, rfl⟩ | ⟨hn, hn', hsmall, hround⟩)
    · rfl
    · rw [Value.written_of_isWord h hn, Value.written_of_isWord h' hn]
    · cases hx : Double.ofInt? n with
      | none => exact absurd (Double.ofInt?_eq_none_iff.mp hx) (Nat.not_le.mpr hsmall)
      | some x =>
        rw [Value.written_of_ofInt? h hn hx, Value.written_of_ofInt? h' hn' (hround.trans hx)]

/-- **What becomes of an integer on the command line.** An integer that fits in 64 bits is written
as it is. Any other one that is not too large is written as a numeral of an integer with the same
nearest number of double precision, and so is a different integer; one that is too large is written
between quotes. The same is written for two numerals if and only if they are the same text, are of
one integer that fits in 64 bits, or are of two beyond with the same nearest number. -/
theorem Value.written_numeral {raw : String} {n : Int} (h : Numeral raw n) :
    (∀ key, '=' ∉ key.toList → Text.trim key ≠ "" →
      CommandLine.keyValue (key ++ "=" ++ raw) = .ok (Text.trim key, parseLoose raw)) ∧
    (isWord n = true → written raw = toString n ∧ Numeral (written raw) n) ∧
    (isWord n = false → n.natAbs < Double.tooLarge →
      (∃ x m, Double.ofInt? n = some x ∧ x.IsNearest n ∧ Numeral (written raw) m ∧
        isWord m = false ∧ Double.ofInt? m = some x) ∧
        ∃ n', n' ≠ n ∧ ∀ raw', Numeral raw' n' → written raw' = written raw) ∧
    (Double.tooLarge ≤ n.natAbs → written raw = "'" ++ raw ++ "'" ∧ ∀ m, ¬Numeral (written raw) m) ∧
    ∀ raw' n', Numeral raw' n' → (written raw' = written raw ↔
      raw' = raw ∨ (isWord n = true ∧ n' = n) ∨
        (isWord n = false ∧ isWord n' = false ∧ n.natAbs < Double.tooLarge ∧
          Double.ofInt? n' = Double.ofInt? n)) := by
  refine ⟨fun key => CommandLine.keyValue_append, fun hn => ?_, fun hn hsmall => ?_,
    fun hlarge => ?_, fun raw' n' h' => h.written_eq_iff h'⟩
  · rw [written_of_isWord h hn]
    exact ⟨rfl, numeral_toString n⟩
  · cases hx : Double.ofInt? n with
    | none => exact absurd (Double.ofInt?_eq_none_iff.mp hx) (Nat.not_le.mpr hsmall)
    | some x =>
      have hlarge := Double.large_of_ofInt? hx hn
      rw [written_of_ofInt? h hn hx]
      obtain ⟨m, hm⟩ := Double.exists_numeral_plain hlarge
      obtain ⟨n', hne, hword, hround⟩ := Double.exists_ne_ofInt? hlarge n
      exact ⟨⟨x, m, rfl, Double.isNearest_of_ofInt? hx, hm⟩, n', hne, fun raw' h' =>
        written_of_ofInt? h' hword hround⟩
  · rw [written_of_tooLarge h hlarge]
    exact ⟨rfl, fun m => not_numeral_quoted⟩

/-! ## Two tenants -/

/-- A numeral that is the text of its integer. -/
theorem numeral_of_toString_eq {s : String} {n : Int} (h : toString n = s) : Numeral s n :=
  h ▸ numeral_toString n

/-- The numerals of `2 ^ 63` and of the next integer, for which the same is written. -/
theorem Value.written_numeral_pastWord :
    Numeral "9223372036854775809" 9223372036854775809 ∧
      (∃ x m, Double.ofInt? 9223372036854775809 = some x ∧ x.IsNearest 9223372036854775809 ∧
        Numeral (written "9223372036854775809") m ∧ isWord m = false ∧ Double.ofInt? m = some x) ∧
      written "9223372036854775808" = written "9223372036854775809" := by
  have h : Numeral "9223372036854775809" 9223372036854775809 :=
    numeral_of_toString_eq (by decide +kernel)
  have h' : Numeral "9223372036854775808" 9223372036854775808 :=
    numeral_of_toString_eq (by decide +kernel)
  obtain ⟨-, -, hnearest, -, hsame⟩ := Value.written_numeral h
  exact ⟨h, (hnearest (by decide) (by decide +kernel)).1,
    (hsame _ _ h').mpr (.inr (.inr ⟨by decide, by decide, by decide +kernel, by decide +kernel⟩))⟩

/-- What is written for the tenant `2 ^ 63 + 1` is no numeral of it, and it is shown the rows that
the tenant `2 ^ 63` is shown: those of a third one. -/
theorem Value.not_written_apart :
    let e : Enforcer (Except PolicyError) :=
      ⟨.generic, [({ defaultColumn := some "tenant_id" } : Tenant).policy], .allowAll⟩
    let shown (tenant : String) : Except CommandLine.CommandError String := do
      let context ← CommandLine.contextOf
        { sql := "SELECT * FROM orders", values := ["tenant_id=" ++ tenant] } (.ofList [])
      CommandLine.ofPolicies (e.enforce "SELECT * FROM orders" context)
    Numeral "9223372036854775809" 9223372036854775809 ∧
      ¬Numeral (written "9223372036854775809") 9223372036854775809 ∧
      shown "9223372036854775808" =
        .ok "SELECT * FROM orders WHERE tenant_id = 9223372036854776000" ∧
      shown "9223372036854775809" =
        .ok "SELECT * FROM orders WHERE tenant_id = 9223372036854776000" := by
  have hwritten : written "9223372036854775809" = "9223372036854776000" := by decide +kernel
  have hthird : Numeral "9223372036854776000" 9223372036854776000 :=
    numeral_of_toString_eq (by decide +kernel)
  refine ⟨numeral_of_toString_eq (by decide +kernel), fun h => ?_,
    eq_ok_of_toOption (by decide +kernel), eq_ok_of_toOption (by decide +kernel)⟩
  rw [hwritten] at h
  exact absurd (hthird.unique h) (by decide)

end RowPolicy
