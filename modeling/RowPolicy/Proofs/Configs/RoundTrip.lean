import RowPolicy.Proofs.Configs.Records
import RowPolicy.Proofs.Json.RoundTrip

/-!
# Configurations read back

A configuration that was read from a text is read back from the text it is written to
(`Config.ofText_toJson`). The order in which the columns of a table are written does not count.
-/

namespace RowPolicy

/-! ## What is decoded -/

theorem exists_of_mem_right {α β : Type} {R : α → β → Prop} {as : List α} {bs : List β}
    (h : List.Forall₂ R as bs) {b : β} (hb : b ∈ bs) : ∃ a ∈ as, R a b := by
  induction h with
  | nil => cases hb
  | @cons a b' as bs hab _ ih =>
    rcases List.mem_cons.mp hb with rfl | hb
    · exact ⟨a, List.mem_cons_self, hab⟩
    · obtain ⟨a', ha', hab'⟩ := ih hb
      exact ⟨a', List.mem_cons_of_mem _ ha', hab'⟩

section Decoded

variable {α : Type} {item : Json → Decoded α} {j : Json}

/-- What a field with a default holds is its default or was decoded. -/
theorem Fields.eq_or_decoded {fs : Fields} {key : String} {default a : α}
    (h : fs.orElse key item default = .ok a) : a = default ∨ ∃ j, item j = .ok a := by
  unfold Fields.orElse at h
  split at h
  · exact .inr ⟨_, h⟩
  · exact .inl (Except.ok.inj h).symm

theorem decoded_of_mem_optional {o : Option α} (h : Json.asOptional item j = .ok o) {a : α}
    (ha : a ∈ o) : ∃ j, item j = .ok a := by
  unfold Json.asOptional at h
  split at h
  · cases h
    cases ha
  · obtain ⟨a', ha', rfl⟩ := map_eq_ok_iff.mp h
    cases ha
    exact ⟨_, ha'⟩

theorem decoded_of_mem_list {as : List α} (h : Json.asList item j = .ok as) {a : α}
    (ha : a ∈ as) : ∃ j, item j = .ok a := by
  unfold Json.asList at h
  split at h
  · obtain ⟨e, -, he⟩ := exists_of_mem_right (mapM_eq_ok_iff.mp h) ha
    exact ⟨e, he⟩
  · cases h

end Decoded

theorem sized_of_asValue {j : Json} {v : Value} (h : Json.asValue j = .ok v) : v.Sized := by
  intro n hv
  subst hv
  unfold Json.asValue at h
  split at h
  case h_3 n' =>
    split at h
    · cases h
      assumption
    · split at h <;> cases h
  all_goals cases h

theorem nodup_putText {ts ts' : List (String × String)} {m : String × Json}
    (h : Json.putText ts m = .ok ts') (hts : (ts.map Prod.fst).Nodup) :
    (ts'.map Prod.fst).Nodup := by
  obtain ⟨s, -, h⟩ := bind_eq_ok_iff.mp h
  cases h
  rw [List.map_append, List.nodup_append]
  refine ⟨hts.sublist (List.filter_sublist.map _), by simp, ?_⟩
  intro p hp q hq
  simp at hp hq
  exact hq ▸ hp.2

theorem nodup_of_asTextMap {j : Json} {ts : List (String × String)}
    (h : Json.asTextMap j = .ok ts) : (ts.map Prod.fst).Nodup := by
  have hfold : ∀ (ms : List (String × Json)) (acc : List (String × String)),
      ms.foldlM Json.putText acc = .ok ts → (acc.map Prod.fst).Nodup →
        (ts.map Prod.fst).Nodup := by
    intro ms
    induction ms with
    | nil =>
      intro acc h hacc
      cases h
      exact hacc
    | cons m ms ih =>
      intro acc h hacc
      rw [List.foldlM_cons] at h
      obtain ⟨acc', hstep, h⟩ := bind_eq_ok_iff.mp h
      exact ih acc' h (nodup_putText hstep hacc)
  unfold Json.asTextMap at h
  split at h
  · exact hfold _ [] h List.nodup_nil
  · cases h

theorem LogicDeleteColumn.sized_of_ofJson {j : Json} {c : LogicDeleteColumn}
    (h : ofJson j = .ok c) : c.Sized := by
  have hdefault (n : Int) (hn : Value.isWord n = true) : (Value.integer n).Sized := by
    rintro m ⟨⟩
    exact hn
  obtain ⟨fs, -, h⟩ := bind_eq_ok_iff.mp h
  obtain ⟨column, -, h⟩ := bind_eq_ok_iff.mp h
  obtain ⟨deleted, hdeleted, h⟩ := bind_eq_ok_iff.mp h
  obtain ⟨kept, hkept, h⟩ := bind_eq_ok_iff.mp h
  cases h
  constructor
  · rcases Fields.eq_or_decoded hdeleted with rfl | ⟨j, hj⟩
    · exact hdefault 1 (by decide)
    · exact sized_of_asValue hj
  · rcases Fields.eq_or_decoded hkept with rfl | ⟨j, hj⟩
    · exact hdefault 0 (by decide)
    · exact sized_of_asValue hj

theorem TableMetadata.decodable_of_ofJson {j : Json} {t : TableMetadata} (h : ofJson j = .ok t) :
    t.Decodable := by
  obtain ⟨fs, -, h⟩ := bind_eq_ok_iff.mp h
  obtain ⟨table, -, h⟩ := bind_eq_ok_iff.mp h
  obtain ⟨columns, hcolumns, h⟩ := bind_eq_ok_iff.mp h
  obtain ⟨mark, hmark, h⟩ := bind_eq_ok_iff.mp h
  obtain ⟨tenantColumn, -, h⟩ := bind_eq_ok_iff.mp h
  obtain ⟨ignoreTenant, -, h⟩ := bind_eq_ok_iff.mp h
  obtain ⟨versionColumn, -, h⟩ := bind_eq_ok_iff.mp h
  cases h
  constructor
  · rcases Fields.eq_or_decoded hcolumns with rfl | ⟨j, hj⟩
    · exact List.nodup_nil
    · exact nodup_of_asTextMap hj
  · intro c hc
    rcases Fields.eq_or_decoded hmark with rfl | ⟨j, hj⟩
    · cases hc
    · obtain ⟨j', hj'⟩ := decoded_of_mem_optional hj hc
      exact LogicDeleteColumn.sized_of_ofJson hj'

namespace Config

theorem decodable_of_ofJson {j : Json} {c : Config} (h : ofJson j = .ok c) : c.Decodable := by
  obtain ⟨fs, -, h⟩ := bind_eq_ok_iff.mp h
  obtain ⟨dialect, -, h⟩ := bind_eq_ok_iff.mp h
  obtain ⟨ignored, -, h⟩ := bind_eq_ok_iff.mp h
  obtain ⟨tables, htables, h⟩ := bind_eq_ok_iff.mp h
  obtain ⟨logicDelete, -, h⟩ := bind_eq_ok_iff.mp h
  obtain ⟨tenant, -, h⟩ := bind_eq_ok_iff.mp h
  obtain ⟨optimisticLock, -, h⟩ := bind_eq_ok_iff.mp h
  obtain ⟨auditColumns, -, h⟩ := bind_eq_ok_iff.mp h
  obtain ⟨pagination, -, h⟩ := bind_eq_ok_iff.mp h
  cases h
  intro t ht
  rcases Fields.eq_or_decoded htables with rfl | ⟨j, hj⟩
  · cases ht
  · obtain ⟨j', hj'⟩ := decoded_of_mem_list hj ht
    exact TableMetadata.decodable_of_ofJson hj'

theorem decodable_of_parse {text : String} {c : Config} (h : parse text = .ok c) :
    c.Decodable := by
  unfold parse at h
  split at h
  · exact decodable_of_ofJson h
  · cases h

end Config

/-! ## Numbers of a configuration -/

/-- The real that a value is, if it is one. -/
def Value.reals : Value → List Double
  | real x => [x]
  | _ => []

/-- The reals that mark the rows of a table. -/
def TableMetadata.reals (t : TableMetadata) : List Double :=
  t.logicDelete.toList.flatMap fun c => c.deletedValue.reals ++ c.notDeletedValue.reals

/-- The reals of a configuration. -/
def Config.reals (c : Config) : List Double :=
  c.tables.flatMap (·.reals)

theorem Json.fits_of_isWord {n : Int} (h : Value.isWord n = true) : Json.Fits n := by
  have hsize : UInt64.size = 18446744073709551616 := rfl
  rw [Value.isWord, Bool.and_eq_true, decide_eq_true_eq, decide_eq_true_eq, Int64.toInt_minValue,
    Int64.toInt_maxValue] at h
  unfold Json.Fits Json.wholeNumber?
  by_cases hn : n < 0
  · have hfits : (decide (0 < n.natAbs) && decide (2 * n.natAbs ≤ UInt64.size)) = true := by
      simp only [Bool.and_eq_true, decide_eq_true_eq]
      omega
    rw [decide_eq_true hn, if_pos rfl, hfits, if_pos rfl]
    congr 1
    omega
  · rw [decide_eq_false hn, if_neg (by decide), if_pos (by omega)]
    congr 1
    omega

namespace Json

theorem exact_object {ms : List (String × Json)} :
    (object ms).Exact ↔ ∀ m ∈ ms, m.2.Exact :=
  membersExact_iff

theorem exact_array {es : List Json} : (array es).Exact ↔ ∀ e ∈ es, e.Exact :=
  elementsExact_iff

theorem exact_texts (ss : List String) : (array (ss.map text)).Exact := by
  rw [exact_array, List.forall_mem_map]
  exact fun _ _ => trivial

theorem exact_ofOption {α : Type} {f : α → Json} {o : Option α} (h : ∀ a ∈ o, (f a).Exact) :
    (ofOption f o).Exact := by
  cases o with
  | none => trivial
  | some a => exact h a rfl

end Json

theorem Value.exact_toJson {v : Value} (hv : v.Sized) (hreals : ∀ x ∈ v.reals, Json.ReadsBack x) :
    v.toJson.Exact := by
  cases v with
  | integer n => exact Json.fits_of_isWord (hv n rfl)
  | real x => exact hreals x (List.mem_singleton_self x)
  | null => trivial
  | boolean b => trivial
  | text s => trivial

theorem LogicDeleteColumn.exact_toJson {c : LogicDeleteColumn} (hc : c.Sized)
    (hreals : ∀ x ∈ c.deletedValue.reals ++ c.notDeletedValue.reals, Json.ReadsBack x) :
    c.toJson.Exact := by
  rw [List.forall_mem_append] at hreals
  exact ⟨trivial, Value.exact_toJson hc.1 hreals.1, Value.exact_toJson hc.2 hreals.2, trivial⟩

theorem TableMetadata.exact_toJson {t : TableMetadata} (ht : t.Decodable)
    (hreals : ∀ x ∈ t.reals, Json.ReadsBack x) : t.toJson.Exact := by
  have hcolumns : (Json.ofTextMap t.columns).Exact := by
    rw [Json.ofTextMap, Json.exact_object, List.forall_mem_map]
    exact fun _ _ => trivial
  have hmark : (Json.ofOption LogicDeleteColumn.toJson t.logicDelete).Exact :=
    Json.exact_ofOption fun c hc => LogicDeleteColumn.exact_toJson (ht.sized c hc) fun x hx =>
      hreals x (List.mem_flatMap.mpr ⟨c, Option.mem_toList.mpr hc, hx⟩)
  have hname (o : Option String) : (Json.ofOption Json.text o).Exact :=
    Json.exact_ofOption fun _ _ => trivial
  exact ⟨trivial, hcolumns, hmark, hname _, trivial, hname _, trivial⟩

theorem AuditSection.exact_toJson (s : AuditSection) : s.toJson.Exact := by
  have hname (o : Option String) : (Json.ofOption Json.text o).Exact :=
    Json.exact_ofOption fun _ _ => trivial
  exact ⟨trivial, trivial, trivial, hname _, hname _, Json.exact_texts _, trivial⟩

namespace Config

theorem exact_sectionMember {α : Type} {key : String} {f : α → Json} {s : Option α}
    (h : ∀ a, (f a).Exact) : ∀ m ∈ sectionMember key f s, m.2.Exact := by
  unfold sectionMember
  rw [List.forall_mem_map]
  exact fun a _ => h a

/-- All numbers that a configuration writes read back, if its reals do. -/
theorem exact_toJson {c : Config} (h : c.Decodable) (hreals : ∀ x ∈ c.reals, Json.ReadsBack x) :
    c.toJson.Exact := by
  have htables : (Json.array (c.tables.map TableMetadata.toJson)).Exact := by
    rw [Json.exact_array, List.forall_mem_map]
    exact fun t ht => TableMetadata.exact_toJson (h t ht) fun x hx =>
      hreals x (List.mem_flatMap.mpr ⟨t, ht, hx⟩)
  have haudits : (Json.array (c.auditColumns.map AuditSection.toJson)).Exact := by
    rw [Json.exact_array, List.forall_mem_map]
    exact fun s _ => s.exact_toJson
  have hname {α : Type} (f : α → String) (o : Option α) :
      (Json.ofOption (fun a => .text (f a)) o).Exact :=
    Json.exact_ofOption fun _ _ => trivial
  rw [toJson, Json.exact_object]
  simp only [members, List.forall_mem_append]
  refine ⟨⟨⟨⟨⟨?_, exact_sectionMember fun s => ?_⟩, exact_sectionMember fun s => ?_⟩,
    exact_sectionMember fun s => ?_⟩, ?_⟩, exact_sectionMember fun s => ?_⟩
  · simp only [List.forall_mem_cons]
    exact ⟨trivial, Json.exact_texts _, htables, by simp⟩
  · exact ⟨trivial, trivial, trivial, trivial, trivial⟩
  · exact ⟨trivial, trivial, trivial, trivial, hname id _, trivial⟩
  · exact ⟨trivial, trivial, trivial, trivial, trivial⟩
  · simpa using haudits
  · exact ⟨trivial, trivial, hname _ _, trivial⟩

end Config

/-! ## The order of columns -/

/-- A map of distinct keys holds under a key what it pairs it with. -/
theorem lookup_eq_some_iff_mem {α β : Type} [BEq α] [LawfulBEq α] {ms : List (α × β)}
    (hnodup : (ms.map Prod.fst).Nodup) {a : α} {b : β} :
    ms.lookup a = some b ↔ (a, b) ∈ ms := by
  constructor
  · intro h
    obtain ⟨front, back, rfl, -⟩ := List.lookup_eq_some_iff.mp h
    simp
  · intro h
    obtain ⟨front, back, rfl⟩ := List.append_of_mem h
    rw [List.map_append, List.nodup_append] at hnodup
    refine List.lookup_eq_some_iff.mpr ⟨front, back, rfl, fun p hp => ?_⟩
    simpa using (hnodup.2.2 p.1 (List.mem_map_of_mem hp) a (by simp)).symm

/-- Whether two tables differ in the order of their columns at most. -/
structure TableMetadata.Same (t u : TableMetadata) : Prop where
  columns : t.columns.Perm u.columns
  others : { t with columns := u.columns } = u

namespace TableMetadata.Same

variable {t u : TableMetadata} (h : t.Same u)
include h

theorem logicDelete_eq : t.logicDelete = u.logicDelete :=
  (congrArg TableMetadata.logicDelete h.others :)

theorem reals_eq : t.reals = u.reals := by
  rw [TableMetadata.reals, TableMetadata.reals, h.logicDelete_eq]

theorem decodable (hu : u.Decodable) : t.Decodable where
  nodup := (h.columns.map Prod.fst).nodup_iff.mpr hu.nodup
  sized := h.logicDelete_eq ▸ hu.sized

/-- The columns are the same as a map: each property has the same column. -/
theorem columnOf_eq (hu : u.Decodable) (property : String) :
    t.columnOf property = u.columnOf property := by
  have hlookup : t.columns.lookup property = u.columns.lookup property := by
    ext column
    rw [lookup_eq_some_iff_mem (h.decodable hu).nodup, lookup_eq_some_iff_mem hu.nodup,
      h.columns.mem_iff]
  rw [TableMetadata.columnOf, TableMetadata.columnOf, hlookup]

end TableMetadata.Same

namespace Config

/-- Whether two configurations differ in the order of the columns of their tables at most. -/
structure Same (c d : Config) : Prop where
  tables : List.Forall₂ TableMetadata.Same c.tables d.tables
  others : { c with tables := d.tables } = d

namespace Same

variable {c d : Config} (h : c.Same d)
include h

theorem reals_eq : c.reals = d.reals := by
  have htables : ∀ {ts us : List TableMetadata}, List.Forall₂ TableMetadata.Same ts us →
      ts.flatMap (·.reals) = us.flatMap (·.reals) := by
    intro ts us h
    induction h with
    | nil => rfl
    | cons ht _ ih => rw [List.flatMap_cons, List.flatMap_cons, ht.reals_eq, ih]
  exact htables h.tables

theorem decodable (hd : d.Decodable) : c.Decodable := by
  intro t ht
  obtain ⟨u, hu, hsame⟩ := exists_of_mem_right h.tables.flip ht
  exact TableMetadata.Same.decodable hsame (hd u hu)

end Same

theorem ofText_eq_ok_iff {text : String} {c : Config} :
    ofText text = .ok c ↔ parse text = .ok c := by
  unfold ofText
  split <;> simp_all

/-- **A configuration reads back.** Let a configuration be read from any text, with its records as
objects or arrays and their defaults written or left out. Written to a text, with the columns of
each table in any order, it is read from there as it was written: with the same sections absent,
and with the marks of rows of the same type and value. The reals among these must read back from
their own texts. -/
theorem ofText_toJson {text : String} {c c' : Config} (h : ofText text = .ok c)
    (hsame : c'.Same c) (hreals : ∀ x ∈ c.reals, Json.ReadsBack x) :
    ofText c'.toJson.compact = .ok c' := by
  have hc' : c'.Decodable := hsame.decodable (decodable_of_parse (ofText_eq_ok_iff.mp h))
  have hexact : c'.toJson.Exact := exact_toJson hc' (hsame.reals_eq ▸ hreals)
  rw [ofText_eq_ok_iff, parse, Json.parse_compact hexact]
  exact ofJson_toJson hc'

/-- Orders whose rows are marked with a real if they are kept and with nothing if not. -/
def ofMarkedOrders : Config where
  tables := [
    { table := "orders"
      columns := [("total", "amount"), ("buyer", "user_id")]
      logicDelete := some {
        column := "state"
        deletedValue := .null
        notDeletedValue := .real ⟨false, 0x3fe0000000000000, by decide⟩ } }]
  logicDelete := some { enabled := false, settings := {} }
  tenant := some { settings := {} }

/-- A text of that configuration, with the table and the section of logic deletion as arrays. -/
def markedOrdersText : String :=
  "\x7b\"tables\": [[\"orders\", \x7b\"total\": \"amount\", \"buyer\": \"user_id\"\x7d, " ++
    "\x7b\"not_deleted_value\": 5e-1, \"column\": \"state\", \"deleted_value\": null\x7d]], " ++
    "\"tenant\": \x7b\x7d, \"logic_delete\": [false]\x7d"

/-- The columns in the other order. -/
def ofSwappedOrders : Config :=
  { ofMarkedOrders with
    tables := ofMarkedOrders.tables.map fun t => { t with columns := t.columns.reverse } }

theorem ofText_toJson_markedOrders :
    ofText markedOrdersText = .ok ofMarkedOrders ∧
      ofText ofSwappedOrders.toJson.compact = .ok ofSwappedOrders := by
  have hread : ofText markedOrdersText = .ok ofMarkedOrders := eq_ok_of_toOption (by decide +kernel)
  have hsame : ofSwappedOrders.Same ofMarkedOrders := {
    tables := List.forall₂_map_left_iff.mpr
      (List.forall₂_same.mpr fun t _ => ⟨t.columns.reverse_perm, rfl⟩)
    others := rfl }
  have hreals : ∀ x ∈ ofMarkedOrders.reals, Json.ReadsBack x := by decide +kernel
  exact ⟨hread, ofText_toJson hread hsame hreals⟩

end Config

end RowPolicy
