import Mathlib
import RowPolicy.Metadata

/-!
# Names of one table

Two names are names of one table where they have one key: the last part, without the quotes at its
ends, in lower case. What stands before a dot, quotes around a name and the case of its letters do
not change the key (`tableKey_dotted`, `tableKey_quoted`, `tableKey_congr`), and a key is its own
key (`tableKey_tableKey`). A name is bare where nothing of it is dropped but the case of its
letters: `tableKey_eq_fold_iff`.
-/

namespace RowPolicy

/-! ## Parts of a name -/

/-- The last part of a dotted name. -/
def lastPart (cs : List Char) : List Char :=
  cs.rtakeWhile (· != '.')

/-- A name without the quotes at its ends. -/
def unquoted (cs : List Char) : List Char :=
  (cs.dropWhile isNameQuote).rdropWhile isNameQuote

/-- A name that has no dot, and no quote at either end. -/
structure Bare (name : String) : Prop where
  undotted : '.' ∉ name.toList
  head : ∀ c ∈ name.toList.head?, isNameQuote c = false
  last : ∀ c ∈ name.toList.getLast?, isNameQuote c = false

theorem fold_ofList (cs : List Char) :
    Text.fold (String.ofList cs) = String.ofList (cs.map Char.toLower) := by
  rw [Text.fold, String.toList_ofList]

theorem tableKey_eq (name : String) :
    tableKey name = Text.fold (String.ofList (unquoted (lastPart name.toList))) := rfl

theorem lastPart_of_undotted {cs : List Char} (h : '.' ∉ cs) : lastPart cs = cs := by
  rw [lastPart, List.rtakeWhile_eq_self_iff]
  intro c hc
  rw [bne_iff_ne]
  rintro rfl
  exact h hc

theorem undotted_lastPart (cs : List Char) : '.' ∉ lastPart cs := by
  intro h
  simpa using List.mem_rtakeWhile_imp h

/-- What stands before the last part is of no account. -/
theorem lastPart_append {cs ds : List Char} (h : '.' ∈ ds) :
    lastPart (cs ++ ds) = lastPart ds := by
  have hstop : (ds.reverse.takeWhile (· != '.')).length ≠ ds.reverse.length := by
    intro hall
    have hself := (List.takeWhile_prefix (· != '.')).eq_of_length hall
    simpa using List.takeWhile_eq_self_iff.mp hself '.' (List.mem_reverse.mpr h)
  rw [lastPart, lastPart, List.rtakeWhile, List.rtakeWhile, List.reverse_append,
    List.takeWhile_append, if_neg hstop]

theorem lastPart_append_of_undotted (cs : List Char) {ds : List Char} (h : '.' ∉ ds) :
    lastPart (cs ++ ds) = lastPart cs ++ ds := by
  have hall : ∀ c ∈ ds.reverse, (c != '.') = true := fun c hc => by
    rw [bne_iff_ne]
    rintro rfl
    exact h (List.mem_reverse.mp hc)
  rw [lastPart, lastPart, List.rtakeWhile, List.rtakeWhile, List.reverse_append,
    List.takeWhile_append_of_pos hall, List.reverse_append, List.reverse_reverse]

/-! ## Quotes -/

/-- Whether all of a text is quotes of names. -/
def Quotes (cs : List Char) : Prop :=
  ∀ c ∈ cs, isNameQuote c = true

theorem Quotes.undotted {cs : List Char} (h : Quotes cs) : '.' ∉ cs :=
  fun hdot => absurd (h _ hdot) (by decide)

theorem unquoted_append_left {os : List Char} (h : Quotes os) (cs : List Char) :
    unquoted (os ++ cs) = unquoted cs := by
  rw [unquoted, List.dropWhile_append_of_pos h, unquoted]

theorem unquoted_append_right (cs : List Char) {qs : List Char} (h : Quotes qs) :
    unquoted (cs ++ qs) = unquoted cs := by
  have hnil : qs.dropWhile isNameQuote = [] := List.dropWhile_eq_nil_iff.mpr h
  rw [unquoted, unquoted, List.dropWhile_append]
  split
  · rename_i hempty
    rw [hnil, List.isEmpty_iff.mp hempty]
  · rw [List.rdropWhile, List.reverse_append, List.dropWhile_append_of_pos
      fun c hc => h c (List.mem_reverse.mp hc), List.rdropWhile]

/-- A text that begins and ends with no quote has none to drop. -/
theorem unquoted_eq_self {cs : List Char} (hhead : ∀ c ∈ cs.head?, isNameQuote c = false)
    (hlast : ∀ c ∈ cs.getLast?, isNameQuote c = false) : unquoted cs = cs := by
  have hleft : cs.dropWhile isNameQuote = cs := by
    cases cs with
    | nil => rfl
    | cons c cs => rw [List.dropWhile_cons_of_neg (by simp [hhead c rfl])]
  rw [unquoted, hleft, List.rdropWhile_eq_self_iff]
  intro hne
  simp [hlast _ (List.getLast?_eq_some_getLast hne)]

theorem head_unquoted (cs : List Char) :
    ∀ c ∈ (unquoted cs).head?, isNameQuote c = false := by
  intro c hc
  have hprefix : unquoted cs <+: cs.dropWhile isNameQuote := List.rdropWhile_prefix _ _
  have hfirst : (cs.dropWhile isNameQuote).head? = some c := by
    obtain ⟨rest, hrest⟩ := hprefix
    rw [← hrest, List.head?_append, hc, Option.some_or]
  have := List.head?_dropWhile_not isNameQuote cs
  rw [hfirst] at this
  simpa using this

theorem last_unquoted (cs : List Char) :
    ∀ c ∈ (unquoted cs).getLast?, isNameQuote c = false := by
  intro c hc
  have hne : unquoted cs ≠ [] := by
    intro hnil
    rw [hnil] at hc
    cases hc
  rw [List.getLast?_eq_some_getLast hne] at hc
  rw [← Option.some.inj hc, ← Bool.not_eq_true]
  exact List.rdropWhile_last_not isNameQuote (cs.dropWhile isNameQuote) hne

theorem sublist_unquoted (cs : List Char) : (unquoted cs).Sublist cs :=
  (List.rdropWhile_prefix _ _).sublist.trans (List.dropWhile_sublist _)

/-! ## Letter case -/

/-- Letters keep their distance from all other characters in lower case. -/
theorem toLower_eq_iff {c d : Char} (hd : d.isAlpha = false) : c.toLower = d ↔ c = d := by
  constructor
  · rintro rfl
    rw [Char.isAlpha_toLower_eq_isAlpha] at hd
    exact (Char.toLower_eq_of_not_isUpper fun hupper => by simp [Char.isAlpha, hupper] at hd).symm
  · rintro rfl
    exact Char.toLower_eq_of_not_isUpper fun hupper => by simp [Char.isAlpha, hupper] at hd

theorem isNameQuote_toLower (c : Char) : isNameQuote c.toLower = isNameQuote c := by
  rw [Bool.eq_iff_iff]
  simp only [isNameQuote, Bool.or_eq_true, beq_iff_eq]
  rw [toLower_eq_iff rfl, toLower_eq_iff rfl, toLower_eq_iff rfl, toLower_eq_iff rfl]

theorem lastPart_map_toLower (cs : List Char) :
    lastPart (cs.map Char.toLower) = (lastPart cs).map Char.toLower := by
  have hdot : ((· != '.') ∘ Char.toLower) = (· != '.') := by
    funext c
    rw [Function.comp_apply, Bool.eq_iff_iff]
    simp only [bne_iff_ne, ne_eq, toLower_eq_iff (c := c) (d := '.') rfl]
  rw [lastPart, List.rtakeWhile, ← List.map_reverse, List.takeWhile_map, hdot, ← List.map_reverse]
  rfl

theorem unquoted_map_toLower (cs : List Char) :
    unquoted (cs.map Char.toLower) = (unquoted cs).map Char.toLower := by
  have hquote : isNameQuote ∘ Char.toLower = isNameQuote := funext isNameQuote_toLower
  rw [unquoted, List.rdropWhile, List.dropWhile_map, hquote, ← List.map_reverse, List.dropWhile_map,
    hquote, ← List.map_reverse]
  rfl

/-! ## Keys -/

/-- The key of a name rests on the name in lower case only. -/
theorem tableKey_fold (name : String) : tableKey (Text.fold name) = tableKey name := by
  have hparts : unquoted (lastPart (Text.fold name).toList) =
      (unquoted (lastPart name.toList)).map Char.toLower := by
    rw [Text.fold, String.toList_ofList, lastPart_map_toLower, unquoted_map_toLower]
  rw [tableKey_eq, tableKey_eq, hparts, ← fold_ofList, Text.fold_fold]

/-- The case of letters is of no account. -/
theorem tableKey_congr {a b : String} (h : Text.fold a = Text.fold b) : tableKey a = tableKey b := by
  rw [← tableKey_fold a, h, tableKey_fold]

/-- What stands before a dot is of no account. -/
theorem tableKey_dotted (schema name : String) :
    tableKey (schema ++ "." ++ name) = tableKey name := by
  have hname : lastPart (schema ++ "." ++ name).toList = lastPart name.toList := by
    rw [String.toList_append]
    by_cases hdot : '.' ∈ name.toList
    · exact lastPart_append hdot
    · have hdots : lastPart (schema ++ ".").toList = lastPart ['.'] := by
        rw [String.toList_append]
        exact lastPart_append List.mem_cons_self
      rw [lastPart_append_of_undotted _ hdot, lastPart_of_undotted hdot, hdots]
      rfl
  rw [tableKey_eq, hname, tableKey_eq]

/-- Quotes around a name are of no account. -/
theorem tableKey_quoted {opening closing : String} (hopening : Quotes opening.toList)
    (hclosing : Quotes closing.toList) (name : String) :
    tableKey (opening ++ name ++ closing) = tableKey name := by
  have hlast : unquoted (lastPart (opening ++ name).toList) = unquoted (lastPart name.toList) := by
    rw [String.toList_append]
    by_cases hdot : '.' ∈ name.toList
    · rw [lastPart_append hdot]
    · rw [lastPart_append_of_undotted _ hdot, lastPart_of_undotted hopening.undotted,
        lastPart_of_undotted hdot, unquoted_append_left hopening]
  rw [tableKey_eq, String.toList_append, lastPart_append_of_undotted _ hclosing.undotted,
    unquoted_append_right _ hclosing, hlast, tableKey_eq]

/-! ## Bare names -/

theorem Bare.tableKey {name : String} (h : Bare name) : tableKey name = Text.fold name := by
  rw [tableKey_eq, lastPart_of_undotted h.undotted, unquoted_eq_self h.head h.last,
    String.ofList_toList]

theorem bare_unquoted (cs : List Char) : Bare (String.ofList (unquoted (lastPart cs))) where
  undotted := by
    rw [String.toList_ofList]
    exact fun h => undotted_lastPart cs ((sublist_unquoted _).mem h)
  head := by
    rw [String.toList_ofList]
    exact head_unquoted _
  last := by
    rw [String.toList_ofList]
    exact last_unquoted _

/-- A name is bare if and only if its key is all of it. -/
theorem tableKey_eq_fold_iff (name : String) : tableKey name = Text.fold name ↔ Bare name := by
  refine ⟨fun h => ?_, Bare.tableKey⟩
  have hsub : (unquoted (lastPart name.toList)).Sublist name.toList :=
    (sublist_unquoted _).trans (List.rtakeWhile_suffix _ _).sublist
  have hlength : (unquoted (lastPart name.toList)).length = name.toList.length := by
    have hfold := congrArg (fun s : String => s.toList.length) h
    simpa [tableKey_eq, Text.fold] using hfold
  have hbare := bare_unquoted name.toList
  rwa [hsub.eq_of_length hlength, String.ofList_toList] at hbare

/-- The key of a name is bare. -/
theorem bare_tableKey (name : String) : Bare (tableKey name) := by
  rw [← tableKey_eq_fold_iff, tableKey_eq name, tableKey_fold, Text.fold_fold]
  exact (bare_unquoted _).tableKey

/-- A key is its own key. -/
theorem tableKey_tableKey (name : String) : tableKey (tableKey name) = tableKey name := by
  rw [(bare_tableKey name).tableKey, tableKey_eq name, Text.fold_fold]

end RowPolicy
