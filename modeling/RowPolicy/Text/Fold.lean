/-!
# Letter case

SQL compares keywords and unquoted names without regard to the case of ASCII letters. `fold` is the
key of that comparison: two texts are the same name exactly when their keys are equal.
-/

namespace RowPolicy.Text

/-- The text with its ASCII letters in lower case. -/
def fold (s : String) : String :=
  String.ofList (s.toList.map Char.toLower)

/-- Equality of texts up to the case of ASCII letters. -/
def sameName (a b : String) : Bool :=
  fold a == fold b

theorem sameName_iff {a b : String} : sameName a b = true ↔ fold a = fold b := by
  simp [sameName]

theorem sameName_self (a : String) : sameName a a = true := by
  simp [sameName]

theorem toLower_toLower (c : Char) : c.toLower.toLower = c.toLower := by
  unfold Char.toLower
  split
  · rename_i h
    split
    · rename_i h'
      exfalso
      simp only [ge_iff_le, UInt32.le_iff_toNat_le] at h h'
      simp at h h'
      omega
    · rfl
  · rfl

theorem fold_fold (s : String) : fold (fold s) = fold s := by
  have h : Char.toLower ∘ Char.toLower = Char.toLower := funext toLower_toLower
  simp only [fold, String.toList_ofList, List.map_map, h]

/-- A key is the same name as what it is the key of. -/
theorem sameName_fold (a b : String) : sameName (fold a) b = sameName a b := by
  simp [sameName, fold_fold]

/-- The ASCII capitals a letter becomes in upper case, for the letters beyond ASCII that become
some: a word that holds them can still spell a keyword. -/
def capitals (c : Char) : List Char :=
  match c.toNat with
  | 0xdf => ['S', 'S']
  | 0x131 => ['I']
  | 0x17f => ['S']
  | 0xfb00 => ['F', 'F']
  | 0xfb01 => ['F', 'I']
  | 0xfb02 => ['F', 'L']
  | 0xfb03 => ['F', 'F', 'I']
  | 0xfb04 => ['F', 'F', 'L']
  | 0xfb05 => ['S', 'T']
  | 0xfb06 => ['S', 'T']
  | _ => [c.toUpper]

/-- The upper-case form in which a word is looked up among the keywords. -/
def keywordForm (s : String) : String :=
  String.ofList (s.toList.flatMap capitals)

/-- The text with its ASCII letters in upper case. -/
def upper (s : String) : String :=
  String.ofList (s.toList.map Char.toUpper)

end RowPolicy.Text
