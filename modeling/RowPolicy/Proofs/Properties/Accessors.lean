import Mathlib
import RowPolicy.Property

/-!
# Accessors and the names of properties

A name is sent through two steps: the word of an accessor is dropped where a capital follows it, and
a capital that no other follows becomes a small letter. The names that neither step changes are the
property's own ones (`name_eq_self_iff`).

Accessors are also made, from a word and the name of a property with a capital in front
(`accessorOf`). What is made of a property refers to it if and only if the second step can undo the
capital (`Accessible`), and no other accessor refers to it; under its own name the property is found
as well, unless that is the name of an accessor of another one (`name_accessorOf_iff`).
-/

namespace RowPolicy.Property

/-- Whether a name is that of an accessor: one of the words, and a capital behind it. -/
def IsAccessor (cs : List Char) : Prop :=
  ∃ word ∈ accessorWords, ∃ c rest, cs = word ++ c :: rest ∧ c.isUpper = true

/-- Whether a name begins with a capital that no other one follows. -/
def Capitalized (cs : List Char) : Prop :=
  ∃ c rest, cs = c :: rest ∧ c.isUpper = true ∧ ∀ d ∈ rest.head?, d.isUpper = false

/-- The names of properties that have accessors: a small letter that no capital follows stands in
front, or two capitals do. -/
inductive Accessible : List Char → Prop
  | small {c : Char} {rest : List Char} :
      c.isLower = true → (∀ d ∈ rest.head?, d.isUpper = false) → Accessible (c :: rest)
  | capitals {c d : Char} {rest : List Char} :
      c.isUpper = true → d.isUpper = true → Accessible (c :: d :: rest)

theorem accessible_singleton {c : Char} : Accessible [c] ↔ c.isLower = true := by
  constructor
  · rintro ⟨hc, -⟩
    exact hc
  · exact fun hc => .small hc (by simp)

theorem accessible_cons_cons {c d : Char} {rest : List Char} :
    Accessible (c :: d :: rest) ↔
      c.isLower = true ∧ d.isUpper = false ∨ c.isUpper = true ∧ d.isUpper = true := by
  constructor
  · intro h
    cases h with
    | small hc hrest => exact .inl ⟨hc, hrest d rfl⟩
    | capitals hc hd => exact .inr ⟨hc, hd⟩
  · rintro (⟨hc, hd⟩ | ⟨hc, hd⟩)
    · exact .small hc (by simpa using hd)
    · exact .capitals hc hd

instance : DecidablePred Accessible
  | [] => .isFalse nofun
  | [_] => decidable_of_iff' _ accessible_singleton
  | _ :: _ :: _ => decidable_of_iff' _ accessible_cons_cons

/-- A name with a capital in front. -/
def capitalize : List Char → List Char
  | [] => []
  | c :: rest => c.toUpper :: rest

/-- The accessor that is made of a word and the name of a property. -/
def accessorOf (word : List Char) (property : String) : String :=
  String.ofList (word ++ capitalize property.toList)

/-! ## Dropping the word -/

theorem accessed?_eq_some_iff {cs word found : List Char} :
    accessed? cs word = some found ↔
      ∃ c rest, found = c :: rest ∧ cs = word ++ c :: rest ∧ c.isUpper = true := by
  constructor
  · intro h
    unfold accessed? at h
    split at h
    · rename_i hprefix
      obtain ⟨behind, rfl⟩ := List.isPrefixOf_iff_prefix.mp hprefix
      rw [List.drop_left] at h
      cases behind with
      | nil => cases h
      | cons c rest =>
        cases hc : c.isUpper with
        | false => simp [hc] at h
        | true =>
          refine ⟨c, rest, ?_, rfl, hc⟩
          simpa [hc] using h.symm
    · cases h
  · rintro ⟨c, rest, rfl, rfl, hc⟩
    have hprefix : word.isPrefixOf (word ++ c :: rest) = true :=
      List.isPrefixOf_iff_prefix.mpr (List.prefix_append _ _)
    simp [accessed?, hprefix, hc]

theorem length_pos_of_mem_accessorWords {word : List Char} (hword : word ∈ accessorWords) :
    0 < word.length := by
  simp only [accessorWords, List.mem_cons, List.not_mem_nil, or_false] at hword
  rcases hword with rfl | rfl | rfl <;> decide

/-- The words begin with different letters, so at most one is that of a name. -/
theorem word_unique {word word' cs ds : List Char} (hword : word ∈ accessorWords)
    (hword' : word' ∈ accessorWords) (h : word ++ cs = word' ++ ds) : word = word' := by
  simp only [accessorWords, List.mem_cons, List.not_mem_nil, or_false] at hword hword'
  rcases hword with rfl | rfl | rfl <;> rcases hword' with rfl | rfl | rfl <;> simp_all

/-- What an accessor gives access to is what follows its word. -/
theorem findSome?_accessed {word : List Char} (hword : word ∈ accessorWords) {c : Char}
    {rest : List Char} (hc : c.isUpper = true) :
    accessorWords.findSome? (accessed? (word ++ c :: rest)) = some (c :: rest) := by
  cases hfound : accessorWords.findSome? (accessed? (word ++ c :: rest)) with
  | none =>
    have hnone := List.findSome?_eq_none_iff.mp hfound word hword
    rw [accessed?_eq_some_iff.mpr ⟨c, rest, rfl, rfl, hc⟩] at hnone
    cases hnone
  | some found =>
    obtain ⟨word', hword', h⟩ := List.exists_of_findSome?_eq_some hfound
    obtain ⟨d, rest', rfl, heq, -⟩ := accessed?_eq_some_iff.mp h
    obtain rfl := word_unique hword hword' heq
    rw [List.append_cancel_left heq]

theorem findSome?_accessed_eq_none_iff {cs : List Char} :
    accessorWords.findSome? (accessed? cs) = none ↔ ¬IsAccessor cs := by
  rw [List.findSome?_eq_none_iff]
  constructor
  · rintro hnone ⟨word, hword, c, rest, rfl, hc⟩
    have := hnone word hword
    rw [accessed?_eq_some_iff.mpr ⟨c, rest, rfl, rfl, hc⟩] at this
    cases this
  · intro hnot word hword
    cases h : accessed? cs word with
    | none => rfl
    | some found =>
      obtain ⟨c, rest, -, rfl, hc⟩ := accessed?_eq_some_iff.mp h
      exact absurd ⟨word, hword, c, rest, rfl, hc⟩ hnot

instance : DecidablePred IsAccessor := fun cs =>
  decidable_of_iff ((accessorWords.findSome? (accessed? cs)).isSome = true) (by
    rw [Option.isSome_iff_ne_none, ne_eq, findSome?_accessed_eq_none_iff, not_not])

/-! ## Small letters in front -/

theorem length_decapitalize (cs : List Char) : (decapitalize cs).length = cs.length := by
  match cs with
  | [] => rfl
  | [_] => rfl
  | c :: d :: cs =>
    rw [decapitalize]
    split <;> rfl

theorem decapitalize_cons {c : Char} {rest : List Char} (h : ∀ d ∈ rest.head?, d.isUpper = false) :
    decapitalize (c :: rest) = c.toLower :: rest := by
  cases rest with
  | nil => rfl
  | cons d rest => simp [decapitalize, h d rfl]

/-- Small letters in front stay. -/
theorem decapitalize_eq_self_iff {cs : List Char} : decapitalize cs = cs ↔ ¬Capitalized cs := by
  constructor
  · rintro h ⟨c, rest, rfl, hc, hrest⟩
    rw [decapitalize_cons hrest] at h
    have hlower := congrArg Char.isUpper (List.cons.inj h).1
    rw [Char.isUpper_toLower_eq_false, hc] at hlower
    cases hlower
  · intro hnot
    match cs with
    | [] => rfl
    | c :: rest =>
      by_cases hrest : ∀ d ∈ rest.head?, d.isUpper = false
      · rw [decapitalize_cons hrest,
          Char.toLower_eq_of_not_isUpper fun hc => hnot ⟨c, rest, rfl, hc, hrest⟩]
      · cases rest with
        | nil => simp at hrest
        | cons d rest => simpa [decapitalize] using fun hd => absurd hd (by simpa using hrest)

/-- A small letter that was made a capital becomes small again. -/
theorem decapitalize_toUpper {c : Char} (hc : c.isLower = true) {rest : List Char}
    (hrest : ∀ d ∈ rest.head?, d.isUpper = false) :
    decapitalize (c.toUpper :: rest) = c :: rest := by
  rw [decapitalize_cons hrest, Char.toLower_toUpper_eq_toLower,
    Char.toLower_eq_of_not_isUpper (Char.not_isUpper_of_isLower hc)]

/-- Two capitals stay. -/
theorem decapitalize_capitals (c : Char) {d : Char} (hd : d.isUpper = true) (rest : List Char) :
    decapitalize (c :: d :: rest) = c :: d :: rest := by
  rw [decapitalize, if_pos hd]

/-- What becomes of a name with a capital in front: the one name that has accessors and is that name
with a capital in front. -/
theorem decapitalize_eq_iff {c : Char} (hc : c.isUpper = true) {rest cs : List Char} :
    decapitalize (c :: rest) = cs ↔ Accessible cs ∧ capitalize cs = c :: rest := by
  have hself : c.toUpper = c := Char.toUpper_eq_of_not_isLower (Char.not_isLower_of_isUpper hc)
  constructor
  · rintro rfl
    by_cases hrest : ∀ d ∈ rest.head?, d.isUpper = false
    · have hlower : c.toLower.isLower = true := by
        rw [Char.isLower_toLower_eq_isAlpha, Char.isAlpha, hc, Bool.true_or]
      rw [decapitalize_cons hrest, capitalize, Char.toUpper_toLower_eq_toUpper, hself]
      exact ⟨.small hlower hrest, rfl⟩
    · cases rest with
      | nil => simp at hrest
      | cons d rest =>
        have hd : d.isUpper = true := by simpa using hrest
        rw [decapitalize_capitals c hd, capitalize, hself]
        exact ⟨.capitals hc hd, rfl⟩
  · rintro ⟨haccessible, hcapital⟩
    cases haccessible with
    | small hlower hrest =>
      rw [← hcapital, capitalize, decapitalize_toUpper hlower hrest]
    | @capitals a d rest ha hd =>
      have ha : a.toUpper = a := Char.toUpper_eq_of_not_isLower (Char.not_isLower_of_isUpper ha)
      rw [← hcapital, capitalize, decapitalize_capitals _ hd, ha]

theorem Accessible.not_capitalized {cs : List Char} (h : Accessible cs) : ¬Capitalized cs := by
  rintro ⟨c, rest, rfl, hc, hrest⟩
  cases h with
  | small hlower => exact Char.not_isLower_of_isUpper hc hlower
  | capitals _ hd => rw [hrest _ rfl] at hd; cases hd

/-- A property that has accessors begins with a letter, which has a capital. -/
theorem Accessible.exists_capitalize {cs : List Char} (h : Accessible cs) :
    ∃ c rest, capitalize cs = c :: rest ∧ c.isUpper = true := by
  cases h with
  | @small c rest hlower _ =>
    refine ⟨c.toUpper, rest, rfl, ?_⟩
    rw [Char.isUpper_toUpper_eq_isAlpha, Char.isAlpha, hlower, Bool.or_true]
  | @capitals c d rest hc _ =>
    refine ⟨c.toUpper, d :: rest, rfl, ?_⟩
    rw [Char.isUpper_toUpper_eq_isAlpha, Char.isAlpha, hc, Bool.true_or]

/-! ## Names -/

theorem name_of_not_isAccessor {s : String} (h : ¬IsAccessor s.toList) :
    name s = String.ofList (decapitalize s.toList) := by
  rw [name, findSome?_accessed_eq_none_iff.mpr h, Option.getD_none]

theorem name_of_isAccessor {word : List Char} (hword : word ∈ accessorWords) {c : Char}
    {rest : List Char} (hc : c.isUpper = true) :
    name (String.ofList (word ++ c :: rest)) = String.ofList (decapitalize (c :: rest)) := by
  rw [name, String.toList_ofList, findSome?_accessed hword hc, Option.getD_some]

/-- **The names that are a property's own**: those of no accessor that begin with no capital, unless
with two of them. -/
theorem name_eq_self_iff (s : String) :
    name s = s ↔ ¬IsAccessor s.toList ∧ ¬Capitalized s.toList := by
  by_cases haccessor : IsAccessor s.toList
  · refine iff_of_false (fun h => ?_) fun h => h.1 haccessor
    obtain ⟨word, hword, c, rest, hs, hc⟩ := haccessor
    obtain rfl : s = String.ofList (word ++ c :: rest) := by rw [← hs, String.ofList_toList]
    rw [name_of_isAccessor hword hc, String.ofList_inj] at h
    have hlength := congrArg List.length h
    have hpos := length_pos_of_mem_accessorWords hword
    rw [length_decapitalize, List.length_append] at hlength
    omega
  · rw [name_of_not_isAccessor haccessor, String.ofList_eq, decapitalize_eq_self_iff]
    exact (and_iff_right haccessor).symm

/-! ## Accessors of a property -/

/-- An accessor that is made of a property refers to it. -/
theorem Accessible.name_accessorOf {word : List Char} (hword : word ∈ accessorWords)
    {property : String} (h : Accessible property.toList) :
    name (accessorOf word property) = property := by
  obtain ⟨c, rest, hcapital, hc⟩ := h.exists_capitalize
  rw [accessorOf, hcapital, name_of_isAccessor hword hc, String.ofList_eq,
    decapitalize_eq_iff hc]
  exact ⟨h, hcapital⟩

/-- An accessor whose word is followed by the name of a property with a capital in front refers to
the property. -/
theorem name_accessor {word : List Char} (hword : word ∈ accessorWords) {c : Char}
    (hc : c.isLower = true) {rest : List Char} (hrest : ∀ d ∈ rest.head?, d.isUpper = false) :
    name (String.ofList (word ++ c.toUpper :: rest)) = String.ofList (c :: rest) := by
  have haccessible : Accessible (String.ofList (c :: rest)).toList := by
    rw [String.toList_ofList]
    exact .small hc hrest
  have hname := haccessible.name_accessorOf hword
  rwa [accessorOf, String.toList_ofList] at hname

/-- Each accessor is made of the property that it refers to. -/
theorem IsAccessor.exists_accessorOf {reference : String} (h : IsAccessor reference.toList) :
    Accessible (name reference).toList ∧
      ∃ word ∈ accessorWords, reference = accessorOf word (name reference) := by
  obtain ⟨word, hword, c, rest, hreference, hc⟩ := h
  obtain rfl : reference = String.ofList (word ++ c :: rest) := by
    rw [← hreference, String.ofList_toList]
  obtain ⟨haccessible, hcapital⟩ := (decapitalize_eq_iff hc).mp rfl
  rw [name_of_isAccessor hword hc, String.toList_ofList]
  refine ⟨haccessible, word, hword, ?_⟩
  rw [accessorOf, String.toList_ofList, hcapital]

/-- What is made of a word and a name is longer than the name, so it refers to the name only as an
accessor. -/
theorem isAccessor_of_name_accessorOf {word : List Char} (hword : word ∈ accessorWords)
    {property : String} (h : name (accessorOf word property) = property) :
    IsAccessor (accessorOf word property).toList := by
  by_contra hnot
  rw [name_of_not_isAccessor hnot, String.ofList_eq] at h
  have hlength := congrArg List.length h
  have hcapital : (capitalize property.toList).length = property.toList.length := by
    cases property.toList <;> rfl
  have hpos := length_pos_of_mem_accessorWords hword
  rw [length_decapitalize, accessorOf, String.toList_ofList, List.length_append, hcapital]
    at hlength
  omega

/-- **Accessors and explicit names meet.** Each of the three words makes an accessor that refers to
the property if and only if the property's name begins with a small letter that no capital follows,
or with two capitals; and no other accessor refers to it. Such a property is referred to by its own
name too, if and only if that is the name of no accessor. -/
theorem name_accessorOf_iff (property : String) :
    (∀ word ∈ accessorWords,
      name (accessorOf word property) = property ↔ Accessible property.toList) ∧
    (∀ reference : String, IsAccessor reference.toList → name reference = property →
      ∃ word ∈ accessorWords, reference = accessorOf word property) ∧
    (Accessible property.toList → (name property = property ↔ ¬IsAccessor property.toList)) := by
  refine ⟨fun word hword => ⟨fun h => ?_, fun h => h.name_accessorOf hword⟩, ?_, fun h => ?_⟩
  · have haccessible := (isAccessor_of_name_accessorOf hword h).exists_accessorOf.1
    rwa [h] at haccessible
  · rintro reference haccessor rfl
    exact haccessor.exists_accessorOf.2
  · rw [name_eq_self_iff]
    exact and_iff_left h.not_capitalized

/-- An issue is referred to by its own name, which only begins like that of an accessor. -/
theorem name_accessorOf_issue :
    Accessible "issue".toList ∧ ¬IsAccessor "issue".toList ∧ name "issue" = "issue" ∧
      ∀ word ∈ accessorWords, name (accessorOf word "issue") = "issue" := by
  obtain ⟨hmade, -, hown⟩ := name_accessorOf_iff "issue"
  have haccessible : Accessible "issue".toList := by decide
  have hnot : ¬IsAccessor "issue".toList := by decide
  exact ⟨haccessible, hnot, (hown haccessible).mpr hnot,
    fun word hword => (hmade word hword).mpr haccessible⟩

/-- Accessors reach a property whose own name is the accessor of another one. -/
example : name (accessorOf "get".toList "isActive") = "isActive" ∧ name "isActive" = "active" := by
  decide

end RowPolicy.Property
