import RowPolicy.Proofs.Json.Tokens

/-!
# Values read back

The compact text of a value is read as that value, if its whole numbers fit in 64 bits and its
reals read back (`parse_compact`). Both the printer and the reader go down the tree, so the proof
does: `readValue_print` holds of a value in any surroundings, as long as what follows it closes it.
-/

namespace RowPolicy.Json

/-! ## Blanks -/

/-- Whether a text holds no blank. -/
def NoBlank (cs : List Char) : Prop :=
  ∀ c ∈ cs, isBlank c = false

instance (cs : List Char) : Decidable (NoBlank cs) :=
  List.decidableBAll (fun c => isBlank c = false) cs

theorem NoBlank.append {cs ds : List Char} (hcs : NoBlank cs) (hds : NoBlank ds) :
    NoBlank (cs ++ ds) := fun c hc =>
  (List.mem_append.mp hc).elim (hcs c) (hds c)

theorem isBlank_of_isDigit {c : Char} (h : c.isDigit = true) : isBlank c = false := by
  unfold isBlank
  by_contra hblank
  simp only [Bool.not_eq_false, Bool.or_eq_true, beq_iff_eq] at hblank
  rcases hblank with ((rfl | rfl) | rfl) | rfl <;> exact absurd h (by decide)

theorem noBlank_toDigits (n : Nat) : NoBlank (Nat.toDigits 10 n) := fun _ hc =>
  isBlank_of_isDigit (Nat.isDigit_of_mem_toDigits (by decide) (by decide) hc)

theorem toList_toString_ofNat (n : Nat) : (toString (Int.ofNat n)).toList = Nat.toDigits 10 n :=
  Nat.toList_repr

theorem toList_toString_negSucc (n : Nat) :
    (toString (Int.negSucc n)).toList = '-' :: Nat.toDigits 10 (n + 1) := by
  change ("-" ++ (n + 1).repr).toList = _
  rw [String.toList_append, Nat.toList_repr]
  rfl

theorem noBlank_toString (n : Int) : NoBlank (toString n).toList := by
  cases n with
  | ofNat n =>
    rw [toList_toString_ofNat]
    exact noBlank_toDigits n
  | negSucc n =>
    rw [toList_toString_negSucc]
    exact List.forall_mem_cons.mpr ⟨by decide, noBlank_toDigits (n + 1)⟩

theorem noBlank_zeros (n : Nat) : NoBlank (Double.zeros n).toList := by
  intro c hc
  rw [Double.zeros, String.toList_ofList] at hc
  rw [List.eq_of_mem_replicate hc]
  decide

theorem noBlank_pointed {digits : String} (h : NoBlank digits.toList) (places : Nat) :
    NoBlank (Double.pointed digits places).toList := by
  have hpadded : NoBlank (Double.zeros (places + 1 - digits.length) ++ digits).toList := by
    rw [String.toList_append]
    exact (noBlank_zeros _).append h
  simp only [Double.pointed, String.toList_append, String.toList_ofList]
  refine NoBlank.append (NoBlank.append ?_ (by decide)) ?_
  · exact fun c hc => hpadded c (List.mem_of_mem_take (by simpa using hc))
  · exact fun c hc => hpadded c (List.mem_of_mem_drop (by simpa using hc))

/-- A real number is printed without blanks. -/
theorem noBlank_scientific (x : Double) : NoBlank x.scientific.toList := by
  have hdigits (n : Nat) : NoBlank (toString n).toList := by
    rw [show (toString n).toList = Nat.toDigits 10 n from Nat.toList_repr]
    exact noBlank_toDigits n
  have hsign : NoBlank x.signText.toList := by
    unfold Double.signText
    split <;> decide
  simp only [Double.scientific]
  rw [String.toList_append]
  refine hsign.append ?_
  split
  · decide
  · split
    · simp only [String.toList_append]
      exact ((hdigits _).append (noBlank_zeros _)).append (by decide)
    · split
      · exact noBlank_pointed (hdigits _) _
      · simp only [String.toList_append]
        refine (NoBlank.append ?_ (by decide)).append (noBlank_toString _)
        split
        · exact hdigits _
        · exact noBlank_pointed (hdigits _) _

theorem skipBlanks_cons {c : Char} (h : isBlank c = false) (cs : List Char) :
    skipBlanks (c :: cs) = c :: cs :=
  List.dropWhile_cons_of_neg (by simp [h])

theorem NoBlank.skipBlanks {cs : List Char} (h : NoBlank cs) : skipBlanks cs = cs := by
  cases cs with
  | nil => rfl
  | cons c cs => exact skipBlanks_cons (h c (by simp)) cs

theorem Closes.skipBlanks {rest : List Char} (h : Closes rest) : skipBlanks rest = rest := by
  cases rest with
  | nil => rfl
  | cons c rest => exact skipBlanks_cons h.head.2.2.2.2.2.2 rest

/-! ## Numbers in a value -/

/-- A number behind its sign, if it has one. -/
def readNumeral : List Char → Except Fault (Json × List Char)
  | '-' :: cs => readNumber true cs
  | cs => readNumber false cs

theorem readNumeral_of_isDigit {c : Char} (h : c.isDigit = true) (cs : List Char) :
    readNumeral (c :: cs) = readNumber false (c :: cs) := by
  unfold readNumeral
  split
  · rename_i heq
    rw [(List.cons.inj heq).1] at h
    exact absurd h (by decide)
  · rfl

theorem readValue_of_isDigit {c : Char} (h : c.isDigit = true) (n : Nat) (cs : List Char) :
    readValue (n + 1) (c :: cs) = readNumber false (c :: cs) := by
  unfold readValue
  rw [skipBlanks_cons (isBlank_of_isDigit h)]
  split
  case h_1 heq => cases heq
  case h_8 heq =>
    cases heq
    have hbrace : (c == openBrace) = false := by
      rw [beq_eq_false_iff_ne]
      rintro rfl
      exact absurd h (by decide)
    rw [hbrace, if_neg (by decide), if_pos h]
  -- no other value starts with a digit
  all_goals
    rename_i heq
    rw [(List.cons.inj heq).1] at h
    exact absurd h (by decide)

/-- The start of a number, which is no other value's. -/
theorem readValue_numeral {c : Char} (h : c = '-' ∨ c.isDigit = true) (n : Nat) (cs : List Char) :
    readValue (n + 1) (c :: cs) = readNumeral (c :: cs) := by
  rcases h with rfl | h
  · simp only [readValue, skipBlanks_cons (show isBlank '-' = false by decide), readNumeral]
  · rw [readValue_of_isDigit h, readNumeral_of_isDigit h]

theorem eq_of_readWord {word : String} {j j' : Json} {cs rest : List Char}
    (h : readWord word j cs = .ok (j', rest)) : j' = j := by
  unfold readWord at h
  split at h
  · cases h
    rfl
  · cases h

/-- Only a number is read as a real. -/
theorem readNumeral_of_readValue {n : Nat} {cs rest : List Char} {x : Double}
    (h : readValue n cs = .ok (.real x, rest)) :
    ∃ c tail, skipBlanks cs = c :: tail ∧ (c = '-' ∨ c.isDigit = true) ∧
      readNumeral (c :: tail) = .ok (.real x, rest) := by
  cases n with
  | zero => cases h
  | succ n =>
    unfold readValue at h
    split at h
    case h_1 => cases h
    case h_2 => cases eq_of_readWord h
    case h_3 => cases eq_of_readWord h
    case h_4 => cases eq_of_readWord h
    case h_5 =>
      obtain ⟨_, -, h⟩ := bind_eq_ok_iff.mp h
      cases h
    case h_6 tail heq => exact ⟨'-', tail, heq, .inl rfl, h⟩
    case h_7 =>
      split at h
      · cases h
      · obtain ⟨_, -, h⟩ := bind_eq_ok_iff.mp h
        cases h
    case h_8 c tail _ _ _ _ _ _ heq =>
      split at h
      · split at h
        · cases h
        · split at h
          · cases h
          · obtain ⟨_, -, h⟩ := bind_eq_ok_iff.mp h
            cases h
      · split at h
        · rename_i hdigit
          exact ⟨c, tail, heq, .inr hdigit, by rwa [readNumeral_of_isDigit hdigit]⟩
        · cases h

theorem readNumeral_append {rest : List Char} (hrest : Closes rest) {c : Char}
    (hc : c = '-' ∨ c.isDigit = true) (cs : List Char) :
    readNumeral (c :: cs ++ rest) =
      (readNumeral (c :: cs)).map fun x => (x.1, x.2 ++ rest) := by
  rcases hc with rfl | hc
  · exact readNumber_append hrest true cs
  · rw [List.cons_append, readNumeral_of_isDigit hc, readNumeral_of_isDigit hc]
    exact readNumber_append hrest false (c :: cs)

theorem readNumeral_suffix {cs rest : List Char} {j : Json}
    (h : readNumeral cs = .ok (j, rest)) : rest <:+ cs := by
  unfold readNumeral at h
  split at h
  · exact (readNumber_suffix h).trans (List.suffix_cons _ _)
  · exact readNumber_suffix h

/-- Whether a real is printed such that it reads back. -/
def ReadsBack (x : Double) : Prop :=
  parse x.scientific = .ok (.real x)

/-- The real that a value is, if it is one. -/
def real? : Json → Option Double
  | real x => some x
  | _ => none

theorem readsBack_iff (x : Double) :
    (parse x.scientific).toOption.bind real? = some x ↔ ReadsBack x := by
  constructor
  · intro h
    obtain ⟨j, hj, hx⟩ := Option.bind_eq_some_iff.mp h
    cases j <;> cases hx
    exact eq_ok_of_toOption hj
  · intro h
    rw [ReadsBack] at h
    rw [h]
    rfl

instance (x : Double) : Decidable (ReadsBack x) :=
  decidable_of_iff _ (readsBack_iff x)

/-- A real that reads back is printed as a number. -/
theorem scientific_numeral {x : Double} (h : ReadsBack x) :
    ∃ c cs, x.scientific.toList = c :: cs ∧ (c = '-' ∨ c.isDigit = true) ∧
      readNumeral (c :: cs) = .ok (.real x, []) := by
  obtain ⟨⟨j, left⟩, hread, hend⟩ := bind_eq_ok_iff.mp h
  have hj : j = .real x ∧ skipBlanks left = [] := by
    simp only at hend
    split at hend
    · rename_i hempty
      exact ⟨Except.ok.inj hend, List.isEmpty_iff.mp hempty⟩
    · cases hend
  obtain ⟨rfl, hleft⟩ := hj
  obtain ⟨c, cs, hcs, hc, hnumeral⟩ := readNumeral_of_readValue hread
  have hblank : NoBlank x.scientific.toList := noBlank_scientific x
  rw [hblank.skipBlanks] at hcs
  have hnil : left = [] := by
    have hsuffix : left <:+ x.scientific.toList := hcs ▸ readNumeral_suffix hnumeral
    have hnone : NoBlank left := fun c hc => hblank c (hsuffix.subset hc)
    rwa [hnone.skipBlanks] at hleft
  exact ⟨c, cs, hcs, hc, hnil ▸ hnumeral⟩

/-- A real that reads back alone does so in front of what closes it. -/
theorem readValue_scientific {x : Double} (h : ReadsBack x) {rest : List Char} (hrest : Closes rest)
    (n : Nat) :
    readValue (n + 1) (x.scientific.toList ++ rest) = .ok (.real x, rest) := by
  obtain ⟨c, cs, hcs, hc, hread⟩ := scientific_numeral h
  rw [hcs, List.cons_append, readValue_numeral hc, ← List.cons_append, readNumeral_append hrest hc,
    hread]
  rfl

/-- Whether a whole number fits in 64 bits, with a sign or without. -/
def Fits (i : Int) : Prop :=
  wholeNumber? (decide (i < 0)) i.natAbs = some i

theorem toString_numeral (i : Int) :
    ∃ c cs, (toString i).toList = c :: cs ∧ (c = '-' ∨ c.isDigit = true) := by
  cases i with
  | ofNat m =>
    obtain ⟨c, cs, hcs⟩ := List.exists_cons_of_ne_nil (Nat.toDigits_ne_nil (n := m) (b := 10))
    have hdigit : c.isDigit = true :=
      Nat.isDigit_of_mem_toDigits (b := 10) (by decide) (by decide) (hcs ▸ List.mem_cons_self)
    exact ⟨c, cs, (toList_toString_ofNat m).trans hcs, .inr hdigit⟩
  | negSucc m => exact ⟨'-', _, toList_toString_negSucc m, .inl rfl⟩

theorem readNumeral_toString {i : Int} (h : Fits i) :
    readNumeral (toString i).toList = .ok (.integer i, []) := by
  cases i with
  | ofNat m =>
    obtain ⟨c, cs, hcs, hc⟩ := toString_numeral (.ofNat m)
    rw [toList_toString_ofNat] at hcs ⊢
    have hdigit : c.isDigit = true :=
      Nat.isDigit_of_mem_toDigits (b := 10) (n := m) (by decide) (by decide)
        (hcs ▸ List.mem_cons_self)
    rw [hcs, readNumeral_of_isDigit hdigit, ← hcs]
    have hsign : decide (Int.ofNat m < 0) = false :=
      decide_eq_false (Int.not_lt.mpr (Int.natCast_nonneg m))
    rw [Fits, hsign] at h
    exact readNumber_toDigits h
  | negSucc m =>
    rw [toList_toString_negSucc]
    rw [Fits, decide_eq_true (Int.negSucc_lt_zero m)] at h
    exact readNumber_toDigits h

/-- A whole number that fits is read in front of what closes it. -/
theorem readValue_toString {i : Int} (h : Fits i) {rest : List Char} (hrest : Closes rest)
    (n : Nat) :
    readValue (n + 1) ((toString i).toList ++ rest) = .ok (.integer i, rest) := by
  have hread := readNumeral_toString h
  obtain ⟨c, cs, hcs, hc⟩ := toString_numeral i
  rw [hcs] at hread
  rw [hcs, List.cons_append, readValue_numeral hc, ← List.cons_append, readNumeral_append hrest hc,
    hread]
  rfl

/-! ## Steps of the reader -/

section Steps

variable {n : Nat} {cs rest : List Char}

theorem readValue_text (n : Nat) {s : String} (h : readString cs = .ok (s.toList, rest)) :
    readValue (n + 1) ('"' :: cs) = .ok (text s, rest) := by
  change (readString cs >>= fun x => pure (text (String.ofList x.1), x.2)) = _
  rw [h]
  change Except.ok (text (String.ofList s.toList), rest) = _
  rw [String.ofList_toList]

theorem readValue_array {c : Char} {es : List Json} (hblank : isBlank c = false) (hc : c ≠ ']')
    (h : readElements n (c :: cs) = .ok (es, rest)) :
    readValue (n + 1) ('[' :: c :: cs) = .ok (array es, rest) := by
  simp only [readValue, skipBlanks_cons (show isBlank '[' = false by decide),
    skipBlanks_cons hblank]
  split
  · rename_i heq
    exact absurd (List.cons.inj heq).1 hc
  · rw [h]
    rfl

theorem readValue_object {ms : List (String × Json)}
    (h : readMembers n ('"' :: cs) = .ok (ms, rest)) :
    readValue (n + 1) (openBrace :: '"' :: cs) = .ok (object ms, rest) := by
  change (readMembers n ('"' :: cs) >>= fun x => pure (object x.1, x.2)) = _
  rw [h]
  rfl

variable {e : Json} {tail : List Char}

theorem readElements_last (h : readValue n cs = .ok (e, ']' :: rest)) :
    readElements (n + 1) cs = .ok ([e], rest) := by
  rw [readElements, h]
  rfl

theorem readElements_more {es : List Json} (h : readValue n cs = .ok (e, ',' :: tail))
    (hes : readElements n tail = .ok (es, rest)) :
    readElements (n + 1) cs = .ok (e :: es, rest) := by
  rw [readElements, h]
  change (readElements n tail >>= fun x => pure (e :: x.1, x.2)) = _
  rw [hes]
  rfl

variable {k : String} {v : Json} {text : List Char}

theorem readMembers_last (hk : readString cs = .ok (k.toList, ':' :: text))
    (hv : readValue n text = .ok (v, closeBrace :: rest)) :
    readMembers (n + 1) ('"' :: cs) = .ok ([(k, v)], rest) := by
  simp only [readMembers, skipBlanks_cons (show isBlank '"' = false by decide), hk,
    skipBlanks_cons (show isBlank ':' = false by decide), hv,
    skipBlanks_cons (show isBlank closeBrace = false by decide), Bind.bind, Except.bind,
    String.ofList_toList]
  rfl

theorem readMembers_more {ms : List (String × Json)}
    (hk : readString cs = .ok (k.toList, ':' :: text))
    (hv : readValue n text = .ok (v, ',' :: tail)) (hms : readMembers n tail = .ok (ms, rest)) :
    readMembers (n + 1) ('"' :: cs) = .ok ((k, v) :: ms, rest) := by
  simp only [readMembers, skipBlanks_cons (show isBlank '"' = false by decide), hk,
    skipBlanks_cons (show isBlank ':' = false by decide), hv,
    skipBlanks_cons (show isBlank ',' = false by decide), hms, Bind.bind, Except.bind,
    String.ofList_toList]
  rfl

end Steps

/-! ## Values -/

mutual

/-- Whether the numbers of a value are such that it reads back. -/
def Exact : Json → Prop
  | integer i => Fits i
  | real x => ReadsBack x
  | array es => elementsExact es
  | object ms => membersExact ms
  | _ => True

/-- Whether the numbers of several values are. -/
def elementsExact : List Json → Prop
  | [] => True
  | e :: es => Exact e ∧ elementsExact es

/-- Whether the numbers of several members are. -/
def membersExact : List (String × Json) → Prop
  | [] => True
  | ⟨_, v⟩ :: ms => Exact v ∧ membersExact ms

end

theorem elementsExact_iff {es : List Json} : elementsExact es ↔ ∀ e ∈ es, e.Exact := by
  induction es with
  | nil => simp [elementsExact]
  | cons e es ih => simp [elementsExact, ih]

theorem membersExact_iff {ms : List (String × Json)} :
    membersExact ms ↔ ∀ m ∈ ms, m.2.Exact := by
  induction ms with
  | nil => simp [membersExact]
  | cons m ms ih => simp [membersExact, ih]

theorem head_ne_of_numeral {c : Char} (h : c = '-' ∨ c.isDigit = true) :
    isBlank c = false ∧ c ≠ ']' := by
  rcases h with rfl | h
  · decide
  · refine ⟨isBlank_of_isDigit h, ?_⟩
    rintro rfl
    exact absurd h (by decide)

/-- The first character of a value is no blank and no bracket that ends one. -/
theorem print_start {j : Json} (h : j.Exact) :
    ∃ c cs, j.print = c :: cs ∧ isBlank c = false ∧ c ≠ ']' := by
  match j with
  | null => exact ⟨'n', _, rfl, by decide, by decide⟩
  | boolean true => exact ⟨'t', _, rfl, by decide, by decide⟩
  | boolean false => exact ⟨'f', _, rfl, by decide, by decide⟩
  | integer i =>
    obtain ⟨c, cs, hcs, hc⟩ := toString_numeral i
    exact ⟨c, cs, hcs, head_ne_of_numeral hc⟩
  | real x =>
    obtain ⟨c, cs, hcs, hc, -⟩ := scientific_numeral h
    exact ⟨c, cs, hcs, head_ne_of_numeral hc⟩
  | text s => exact ⟨'"', _, rfl, by decide, by decide⟩
  | array [] => exact ⟨'[', _, rfl, by decide, by decide⟩
  | array (e :: es) => exact ⟨'[', _, rfl, by decide, by decide⟩
  | object [] => exact ⟨openBrace, _, rfl, by decide, by decide⟩
  | object (⟨k, v⟩ :: ms) => exact ⟨openBrace, _, rfl, by decide, by decide⟩

theorem closes_printElements (es : List Json) (rest : List Char) :
    Closes (printElements es ++ rest) := by
  cases es <;> simp [printElements, Closes]

theorem closes_printMembers (ms : List (String × Json)) (rest : List Char) :
    Closes (printMembers ms ++ rest) := by
  cases ms <;> simp [printMembers, Closes]

theorem readString_quote (s : String) (rest : List Char) :
    readString (s.toList.flatMap escape ++ ['"'] ++ rest) = .ok (s.toList, rest) := by
  rw [List.append_assoc]
  exact readString_escaped s.toList rest

-- The bound falls by one with each element or member and with each value entered, and each of
-- them has a comma or a bracket of its own in the text.
mutual

/-- A printed value is read in front of what closes it. -/
theorem readValue_print (j : Json) (h : j.Exact) {n : Nat} (hn : j.print.length ≤ n)
    {rest : List Char} (hrest : Closes rest) :
    readValue (n + 1) (j.print ++ rest) = .ok (j, rest) := by
  match j with
  | null => rfl
  | boolean true => rfl
  | boolean false => rfl
  | integer i => exact readValue_toString h hrest n
  | real x => exact readValue_scientific h hrest n
  | text s => exact readValue_text n (readString_quote s rest)
  | array [] => rfl
  | array (e :: es) =>
    have hread : readElements n (e.print ++ printElements es ++ rest) = .ok (e :: es, rest) :=
      readElements_print (e :: es) h (by simp) hn rest
    obtain ⟨c, cs, hcs, hblank, hc⟩ := print_start h.1
    change readValue (n + 1) ('[' :: (e.print ++ printElements es ++ rest)) = _
    rw [hcs] at hread ⊢
    exact readValue_array hblank hc hread
  | object [] => rfl
  | object (⟨k, v⟩ :: ms) =>
    exact readValue_object (readMembers_print (⟨k, v⟩ :: ms) h (by simp) hn rest)

/-- Printed elements, without the comma before the first, are read up to their bracket. -/
theorem readElements_print (es : List Json) (h : elementsExact es) (hne : es ≠ []) {n : Nat}
    (hn : (printElements es).length ≤ n) (rest : List Char) :
    readElements n ((printElements es).tail ++ rest) = .ok (es, rest) := by
  match es, n with
  | [], _ => exact absurd rfl hne
  | e :: es, 0 => exact absurd hn (by simp [printElements])
  | e :: es, n + 1 =>
    have htail : 0 < (printElements es).length := by cases es <;> simp [printElements]
    have hlen : e.print.length + (printElements es).length ≤ n := by
      simpa [printElements] using hn
    obtain ⟨m, rfl⟩ := Nat.exists_eq_add_one_of_ne_zero (n := n) (by omega)
    have hv := readValue_print e h.1 (n := m) (by omega) (closes_printElements es rest)
    change readElements (m + 2) (e.print ++ printElements es ++ rest) = _
    rw [List.append_assoc]
    cases es with
    | nil => exact readElements_last hv
    | cons e' es =>
      exact readElements_more hv (readElements_print (e' :: es) h.2 (by simp) (by omega) rest)

/-- Printed members, without the comma before the first, are read up to their brace. -/
theorem readMembers_print (ms : List (String × Json)) (h : membersExact ms) (hne : ms ≠ [])
    {n : Nat} (hn : (printMembers ms).length ≤ n) (rest : List Char) :
    readMembers n ((printMembers ms).tail ++ rest) = .ok (ms, rest) := by
  match ms, n with
  | [], _ => exact absurd rfl hne
  | ⟨k, v⟩ :: ms, 0 => exact absurd hn (by simp [printMembers])
  | ⟨k, v⟩ :: ms, n + 1 =>
    have htail : 0 < (printMembers ms).length := by cases ms <;> simp [printMembers]
    have hlen : v.print.length + (printMembers ms).length + 2 ≤ n := by
      simp [printMembers, quote] at hn
      omega
    obtain ⟨m, rfl⟩ := Nat.exists_eq_add_one_of_ne_zero (n := n) (by omega)
    have hk := readString_quote k (':' :: (v.print ++ (printMembers ms ++ rest)))
    have hv := readValue_print v h.1 (n := m) (by omega) (closes_printMembers ms rest)
    have htext : (printMembers (⟨k, v⟩ :: ms)).tail ++ rest =
        '"' :: (k.toList.flatMap escape ++ ['"'] ++
          ':' :: (v.print ++ (printMembers ms ++ rest))) := by
      simp [printMembers, quote]
    rw [htext]
    cases ms with
    | nil => exact readMembers_last hk hv
    | cons kv ms =>
      exact readMembers_more hk hv (readMembers_print (kv :: ms) h.2 (by simp) (by omega) rest)

end

/-- **A value is read back from its compact text**, if its whole numbers fit in 64 bits and its
reals read back. -/
theorem parse_compact {j : Json} (h : j.Exact) : parse j.compact = .ok j := by
  have hclosed : Closes [] := by simp [Closes]
  have hread := readValue_print j h (Nat.le_refl _) hclosed
  rw [List.append_nil] at hread
  rw [parse, compact, String.toList_ofList, hread]
  rfl

end RowPolicy.Json
