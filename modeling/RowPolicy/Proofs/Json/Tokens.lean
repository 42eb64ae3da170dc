import Mathlib.Data.List.TakeDrop
import Mathlib.Data.List.TakeWhile
import RowPolicy.Json.Reader
import RowPolicy.Proofs.Outcomes

/-!
# Strings and numbers read back

An escaped string is read as its characters (`readString_escaped`). A number ends where the text
cannot go on as one, so what follows it in a value does not matter (`readNumber_append`), and the
digits of a whole number of 64 bits are read as that number (`readNumber_toDigits`).
-/

namespace RowPolicy.Json

/-! ## Strings -/

/-- A character that is no surrogate by its four digits. -/
theorem readString_unicode {a b c d : Char} {n : Nat} (h : hexValue4? a b c d = some n)
    (hn : n < 0xd800) (rest : List Char) :
    readString ('\\' :: 'u' :: a :: b :: c :: d :: rest) =
      behind (Char.ofNat n) (readString rest) := by
  have hlow : ¬0xd800 ≤ n := by omega
  have hhigh : ¬0xdc00 ≤ n := by omega
  by_cases hpair : ∃ a' b' c' d' rest', rest = '\\' :: 'u' :: a' :: b' :: c' :: d' :: rest'
  · obtain ⟨a', b', c', d', rest', rfl⟩ := hpair
    rw [readString.eq_3]
    simp only [h, hlow, hhigh, decide_false, Bool.false_and, Bool.false_eq_true, if_false]
  · rw [readString.eq_4 _ _ _ _ _ fun a' b' c' d' rest' hrest =>
      hpair ⟨a', b', c', d', rest', hrest⟩]
    simp only [h, hlow, decide_false, Bool.false_and, Bool.false_eq_true, if_false]

theorem hexValue4?_control : ∀ n < 0x20,
    hexValue4? '0' '0' (hexDigit (n / 16)) (hexDigit (n % 16)) = some n := by
  decide

theorem readString_escape (c : Char) (rest : List Char) :
    readString (escape c ++ rest) = behind c (readString rest) := by
  unfold escape
  split
  case h_8 hquote hbackslash _ _ _ _ _ =>
    split
    · rename_i hcontrol
      simp only [List.cons_append, List.nil_append]
      rw [readString_unicode (hexValue4?_control _ hcontrol) (by omega), Char.ofNat_toNat]
    · rename_i hplain
      rw [List.singleton_append, readString.eq_6 c rest hquote
        (fun _ _ _ _ _ _ _ _ _ h => absurd h hbackslash) (fun _ _ _ _ _ h => absurd h hbackslash)
        (fun _ _ h => absurd h hbackslash)]
      have hne : c ≠ '\\' := hbackslash
      exact if_neg (by simpa [hne] using hplain)
  -- the other characters have a letter of their own behind the backslash
  all_goals simp [readString, unescape?]

/-- An escaped string is read up to its quote. -/
theorem readString_escaped (cs rest : List Char) :
    readString (cs.flatMap escape ++ '"' :: rest) = .ok (cs, rest) := by
  induction cs with
  | nil => rfl
  | cons c cs ih =>
    rw [List.flatMap_cons, List.append_assoc, readString_escape, ih]
    rfl

/-! ## Ends of numbers -/

/-- Whether a text is at its end or goes on with what follows a value in an array or object. -/
def Closes (rest : List Char) : Prop :=
  ∀ c ∈ rest.head?, c = ',' ∨ c = ']' ∨ c = closeBrace

theorem Closes.head {c : Char} {rest : List Char} (h : Closes (c :: rest)) :
    c.isDigit = false ∧ c ≠ '.' ∧ c ≠ 'e' ∧ c ≠ 'E' ∧ c ≠ '+' ∧ c ≠ '-' ∧ isBlank c = false := by
  rcases h c rfl with rfl | rfl | rfl <;> decide

section Closed

variable {rest : List Char} (hrest : Closes rest)
include hrest

theorem takeWhile_append_of_closes (cs : List Char) :
    (cs ++ rest).takeWhile Char.isDigit = cs.takeWhile Char.isDigit := by
  induction cs with
  | nil =>
    cases rest with
    | nil => rfl
    | cons c rest => exact List.takeWhile_cons_of_neg (by simp [hrest.head.1])
  | cons c cs ih =>
    rw [List.cons_append, List.takeWhile_cons, List.takeWhile_cons, ih]

theorem dropWhile_append_of_closes (cs : List Char) :
    (cs ++ rest).dropWhile Char.isDigit = cs.dropWhile Char.isDigit ++ rest := by
  induction cs with
  | nil =>
    cases rest with
    | nil => rfl
    | cons c rest => exact List.dropWhile_cons_of_neg (by simp [hrest.head.1])
  | cons c cs ih =>
    rw [List.cons_append, List.dropWhile_cons, List.dropWhile_cons, ih]
    split <;> rfl

theorem splitSign_append (cs : List Char) :
    Double.splitSign (cs ++ rest) = ((Double.splitSign cs).1, (Double.splitSign cs).2 ++ rest) := by
  cases cs with
  | nil =>
    cases rest with
    | nil => rfl
    | cons c rest =>
      obtain ⟨-, -, -, -, hplus, hminus, -⟩ := hrest.head
      simp [Double.splitSign, hplus, hminus]
  | cons c cs =>
    simp only [List.cons_append]
    unfold Double.splitSign
    split <;> simp_all

theorem readFraction_append (cs : List Char) :
    readFraction (cs ++ rest) = (readFraction cs).map fun x => (x.1, x.2 ++ rest) := by
  have hplain : ∀ c tail, c ≠ '.' → readFraction (c :: tail) = .ok (none, c :: tail) :=
    fun c tail hc => readFraction.eq_2 _ fun tail' h => hc (List.cons.inj h).1
  cases cs with
  | nil =>
    cases rest with
    | nil => rfl
    | cons c rest => exact hplain c rest hrest.head.2.1
  | cons c cs =>
    by_cases hc : c = '.'
    · subst hc
      simp only [List.cons_append, readFraction, takeWhile_append_of_closes hrest,
        dropWhile_append_of_closes hrest]
      split <;> rfl
    · rw [List.cons_append, hplain c _ hc, hplain c _ hc]
      rfl

theorem readExponent_append (cs : List Char) :
    readExponent (cs ++ rest) = (readExponent cs).map fun x => (x.1, x.2 ++ rest) := by
  cases cs with
  | nil =>
    cases rest with
    | nil => rfl
    | cons c rest =>
      obtain ⟨-, -, hsmall, hlarge, -⟩ := hrest.head
      simp [readExponent, hsmall, hlarge, Except.map]
  | cons c cs =>
    simp only [List.cons_append, readExponent, splitSign_append hrest,
      takeWhile_append_of_closes hrest, dropWhile_append_of_closes hrest]
    split
    · split <;> rfl
    · rfl

/-- What closes a number is not read with it. -/
theorem readNumber_append (negative : Bool) (cs : List Char) :
    readNumber negative (cs ++ rest) =
      (readNumber negative cs).map fun x => (x.1, x.2 ++ rest) := by
  simp only [readNumber, takeWhile_append_of_closes hrest, dropWhile_append_of_closes hrest,
    readFraction_append hrest]
  generalize cs.takeWhile Char.isDigit = ds
  split
  · rfl
  · rfl
  · cases readFraction (cs.dropWhile Char.isDigit) with
    | error e => rfl
    | ok x =>
      change (readExponent (x.2 ++ rest) >>= fun y =>
          numberOf negative ds x.1 y.1 >>= fun j => pure (j, y.2)) =
        Except.map _ (readExponent x.2 >>= fun y =>
          numberOf negative ds x.1 y.1 >>= fun j => pure (j, y.2))
      rw [readExponent_append hrest]
      cases readExponent x.2 with
      | error e => rfl
      | ok y =>
        change (numberOf negative ds x.1 y.1 >>= fun j => pure (j, y.2 ++ rest)) =
          Except.map _ (numberOf negative ds x.1 y.1 >>= fun j => pure (j, y.2))
        cases numberOf negative ds x.1 y.1 with
        | error e => rfl
        | ok j => rfl

end Closed

/-! ## What a number leaves -/

theorem splitSign_suffix (cs : List Char) : (Double.splitSign cs).2 <:+ cs := by
  unfold Double.splitSign
  split
  · exact List.suffix_cons _ _
  · exact List.suffix_cons _ _
  · exact List.suffix_rfl

theorem readFraction_suffix {cs rest : List Char} {fraction : Option (List Char)}
    (h : readFraction cs = .ok (fraction, rest)) : rest <:+ cs := by
  unfold readFraction at h
  split at h
  · simp only at h
    split at h
    · cases h
    · cases h
      exact (List.dropWhile_suffix _).trans (List.suffix_cons _ _)
  · cases h
    exact List.suffix_rfl

theorem readExponent_suffix {cs rest : List Char} {exponent : Option (Bool × List Char)}
    (h : readExponent cs = .ok (exponent, rest)) : rest <:+ cs := by
  cases cs with
  | nil =>
    cases h
    exact List.suffix_rfl
  | cons c cs =>
    simp only [readExponent] at h
    split at h
    · split at h
      · cases h
      · cases h
        exact (List.dropWhile_suffix _).trans
          ((splitSign_suffix cs).trans (List.suffix_cons _ _))
    · cases h
      exact List.suffix_rfl

theorem readNumber_suffix {negative : Bool} {cs rest : List Char} {j : Json}
    (h : readNumber negative cs = .ok (j, rest)) : rest <:+ cs := by
  unfold readNumber at h
  simp only at h
  split at h
  · cases h
  · cases h
  · obtain ⟨x, hx, h⟩ := bind_eq_ok_iff.mp h
    obtain ⟨y, hy, h⟩ := bind_eq_ok_iff.mp h
    obtain ⟨j', -, h⟩ := bind_eq_ok_iff.mp h
    cases h
    exact (readExponent_suffix hy).trans
      ((readFraction_suffix hx).trans (List.dropWhile_suffix _))

/-! ## Whole numbers -/

theorem le_ofDigitChars (cs : List Char) (n : Nat) : n ≤ Nat.ofDigitChars 10 cs n := by
  induction cs generalizing n with
  | nil => exact Nat.le_refl n
  | cons c cs ih =>
    rw [Nat.ofDigitChars_cons]
    exact Nat.le_trans (by omega) (ih _)

theorem significand_eq {cs : List Char} {n : Nat}
    (h : Nat.ofDigitChars 10 cs n ≤ maxSignificand) :
    significand n cs = (Nat.ofDigitChars 10 cs n, []) := by
  induction cs generalizing n with
  | nil => rfl
  | cons c cs ih =>
    rw [Nat.ofDigitChars_cons, Nat.mul_comm] at h ⊢
    rw [significand, if_neg (Nat.not_lt.mpr (Nat.le_trans (le_ofDigitChars cs _) h)), ih h]

theorem head_toDigits_ne_zero {n : Nat} (h : n ≠ 0) : (Nat.toDigits 10 n).head? ≠ some '0' := by
  induction n using Nat.strongRecOn with
  | ind n ih =>
    by_cases hn : n < 10
    · rw [Nat.toDigits_of_lt_base hn]
      have hdigits : ∀ m < 10, m ≠ 0 → Nat.digitChar m ≠ '0' := by decide
      simpa using hdigits n hn h
    · rw [Nat.toDigits_of_base_le (by decide) (Nat.not_lt.mp hn), List.head?_append_of_ne_nil _
        Nat.toDigits_ne_nil]
      exact ih (n / 10) (by omega) (by omega)

theorem le_maxSignificand {negative : Bool} {n : Nat} {i : Int}
    (h : wholeNumber? negative n = some i) : n ≤ maxSignificand := by
  have hsize : maxSignificand + 1 = UInt64.size := by decide
  unfold wholeNumber? at h
  split at h
  · split at h
    · rename_i hn
      have hhalf : 2 * n ≤ UInt64.size := of_decide_eq_true (Bool.and_eq_true_iff.mp hn).2
      omega
    · cases h
  · split at h
    · omega
    · cases h

/-- The digits of a whole number that fits are read as it. -/
theorem readNumber_toDigits {negative : Bool} {n : Nat} {i : Int}
    (h : wholeNumber? negative n = some i) :
    readNumber negative (Nat.toDigits 10 n) = .ok (integer i, []) := by
  have hdigits : ∀ c ∈ Nat.toDigits 10 n, c.isDigit = true := fun c hc =>
    Nat.isDigit_of_mem_toDigits (by decide) (by decide) hc
  have hspells : significand 0 (Nat.toDigits 10 n) = (n, []) := by
    have hvalue : Nat.ofDigitChars 10 (Nat.toDigits 10 n) 0 = n := Nat.ofDigitChars_ten_toDigits
    rw [significand_eq (hvalue.symm ▸ le_maxSignificand h), hvalue]
  have hnumber : numberOf negative (Nat.toDigits 10 n) none none = .ok (integer i) := by
    simp [numberOf, hspells, h]
  unfold readNumber
  simp only [List.takeWhile_eq_self_iff.mpr hdigits, List.dropWhile_eq_nil_iff.mpr hdigits]
  split
  · rename_i hnil
    exact absurd hnil Nat.toDigits_ne_nil
  · rename_i d ds hzero
    by_cases hn : n = 0
    · subst hn
      cases hzero
    · exact absurd (congrArg List.head? hzero) (head_toDigits_ne_zero hn)
  · change (numberOf negative (Nat.toDigits 10 n) none none >>= fun j => pure (j, [])) = _
    rw [hnumber]
    rfl

end RowPolicy.Json
