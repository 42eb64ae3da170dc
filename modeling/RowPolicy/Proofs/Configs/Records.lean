import Mathlib.Data.List.Nodup
import RowPolicy.Config.Codec
import RowPolicy.Proofs.Outcomes

/-!
# Records decoded from what they encode to

Each record of a configuration is decoded from its own JSON. A record writes its keys in the order
of its fields, so none is unknown and none repeated (`Fields.ofJson_object`), and what is left is
one fact for each kind of field: truth values, texts, lists, maps, and fields that may be absent.
-/

namespace RowPolicy

open Sql

/-! ## Fields -/

namespace Fields

theorem ofMembers_eq {names : List String} {ms : List (String × Json)}
    (hsub : ∀ m ∈ ms, m.1 ∈ names) (hnodup : (ms.map Prod.fst).Nodup) :
    ofMembers names ms = .ok ms := by
  induction ms with
  | nil => rfl
  | cons m ms ih =>
    obtain ⟨k, v⟩ := m
    rw [List.map_cons, List.nodup_cons] at hnodup
    have hknown : names.contains k = true := by simpa using hsub (k, v) List.mem_cons_self
    have hnew : ms.any (·.1 == k) = false := by
      rw [List.any_eq_false]
      intro m hm hk
      exact hnodup.1 (List.mem_map.mpr ⟨m, hm, by simpa using hk⟩)
    rw [ofMembers, hknown, hnew, ih (fun m hm => hsub m (List.mem_cons_of_mem _ hm)) hnodup.2]
    rfl

/-- Members that go in the order of the names are the fields that are given. -/
theorem ofJson_object {names : List String} {ms : List (String × Json)} (hnames : names.Nodup)
    (h : (ms.map Prod.fst).Sublist names) : ofJson names (.object ms) = .ok ⟨ms⟩ := by
  have hmembers : ofMembers names ms = .ok ms :=
    ofMembers_eq (fun m hm => h.subset (List.mem_map_of_mem hm)) (hnames.sublist h)
  rw [ofJson, hmembers]
  rfl

section Given

variable {α : Type} {fs : Fields} {key : String} {item : Json → Decoded α} {j : Json}

theorem orElse_eq {a : α} (h : fs.given.lookup key = some j) : fs.orElse key item a = item j := by
  rw [orElse, h]

theorem optional_eq (h : fs.given.lookup key = some j) :
    fs.optional key item = Json.asOptional item j :=
  orElse_eq h

end Given

end Fields

/-! ## Values of fields -/

section Items

variable {α : Type} {f : α → Json} {item : Json → Decoded α}

theorem asOptional_ofOption {o : Option α} (h : ∀ a ∈ o, item (f a) = .ok a)
    (hnull : ∀ a, f a ≠ .null) : Json.asOptional item (Json.ofOption f o) = .ok o := by
  cases o with
  | none => rfl
  | some a =>
    rw [Json.ofOption, Json.asOptional.eq_2 _ _ (hnull a), h a rfl]
    rfl

@[simp] theorem asOptional_text (o : Option String) :
    Json.asOptional Json.asText (Json.ofOption .text o) = .ok o :=
  asOptional_ofOption (fun _ _ => rfl) (by simp)

theorem asList_map {as : List α} (h : ∀ a ∈ as, item (f a) = .ok a) :
    Json.asList item (.array (as.map f)) = .ok as := by
  change (as.map f).mapM item = .ok as
  rw [mapM_eq_ok_iff, List.forall₂_map_left_iff, List.forall₂_same]
  exact h

@[simp] theorem asList_text (as : List String) :
    Json.asList Json.asText (.array (as.map .text)) = .ok as :=
  asList_map fun _ _ => rfl

theorem asName_text {wanted : String} {ofName? : String → Option α} {s : String} {a : α}
    (h : ofName? s = some a) : Json.asName wanted ofName? (.text s) = .ok a := by
  simp [Json.asName, h]

end Items

/-! ## Values and tables -/

/-- Whether a value, if it is whole, fits in 64 bits with a sign. -/
def Value.Sized (v : Value) : Prop :=
  ∀ n, v = .integer n → Value.isWord n = true

theorem asValue_toJson {v : Value} (h : v.Sized) : Json.asValue v.toJson = .ok v := by
  cases v with
  | integer n => rw [Value.toJson, Json.asValue, if_pos (h n rfl)]
  | null => rfl
  | boolean b => rfl
  | real x => rfl
  | text s => rfl

theorem putText_new {ts : List (String × String)} {t : String × String}
    (h : t.1 ∉ ts.map Prod.fst) : Json.putText ts (t.1, .text t.2) = .ok (ts ++ [t]) := by
  have hkept : ts.filter (·.1 != t.1) = ts := by
    refine List.filter_eq_self.mpr fun x hx => ?_
    rw [bne_iff_ne]
    exact fun heq => h (heq ▸ List.mem_map_of_mem hx)
  change Except.ok (ts.filter (·.1 != t.1) ++ [t]) = _
  rw [hkept]

theorem asTextMap_ofTextMap {ts : List (String × String)} (h : (ts.map Prod.fst).Nodup) :
    Json.asTextMap (Json.ofTextMap ts) = .ok ts := by
  -- Each pair is put behind those before it, for its key is not among theirs.
  have hfold : ∀ ts acc : List (String × String), ((acc ++ ts).map Prod.fst).Nodup →
      (ts.map fun t => (t.1, Json.text t.2)).foldlM Json.putText acc = .ok (acc ++ ts) := by
    intro ts
    induction ts with
    | nil =>
      intro acc _
      rw [List.append_nil]
      rfl
    | cons t ts ih =>
      intro acc hacc
      have hnew : t.1 ∉ acc.map Prod.fst := by
        rw [List.map_append, List.nodup_append] at hacc
        exact fun ht => hacc.2.2 t.1 ht t.1 (by simp) rfl
      rw [List.append_cons] at hacc ⊢
      rw [List.map_cons, List.foldlM_cons, putText_new hnew, ok_bind, ih _ hacc]
  exact hfold ts [] h

/-- Whether the values of a marking column fit. -/
def LogicDeleteColumn.Sized (c : LogicDeleteColumn) : Prop :=
  c.deletedValue.Sized ∧ c.notDeletedValue.Sized

theorem LogicDeleteColumn.ofJson_toJson {c : LogicDeleteColumn} (h : c.Sized) :
    ofJson c.toJson = .ok c := by
  simp [ofJson, toJson, Fields.ofJson_object, ok_bind, Fields.required, Fields.orElse, List.lookup_cons,
    Json.asText, asValue_toJson h.1, asValue_toJson h.2]

/-- What is known of a table as a configuration can say it: no property has two columns, and the
values of the marking column fit. -/
structure TableMetadata.Decodable (t : TableMetadata) : Prop where
  nodup : (t.columns.map Prod.fst).Nodup
  sized : ∀ c ∈ t.logicDelete, c.Sized

theorem TableMetadata.ofJson_toJson {t : TableMetadata} (h : t.Decodable) :
    ofJson t.toJson = .ok t := by
  have hmark : Json.asOptional LogicDeleteColumn.ofJson
      (Json.ofOption LogicDeleteColumn.toJson t.logicDelete) = .ok t.logicDelete :=
    asOptional_ofOption (fun c hc => LogicDeleteColumn.ofJson_toJson (h.sized c hc))
      (by simp [LogicDeleteColumn.toJson])
  simp [ofJson, toJson, Fields.ofJson_object, ok_bind, Fields.required, Fields.orElse,
    Fields.optional, List.lookup_cons, Json.asText, Json.asBool, asTextMap_ofTextMap h.nodup, hmark]

/-! ## Sections -/

theorem LogicDelete.ofJson_toJson (s : Section LogicDelete) : ofJson (toJson s) = .ok s := by
  simp [ofJson, toJson, Fields.ofJson_object, ok_bind, Fields.orElse, List.lookup_cons, Json.asBool]

theorem Tenant.ofJson_toJson (s : Section Tenant) : ofJson (toJson s) = .ok s := by
  simp [ofJson, toJson, Fields.ofJson_object, ok_bind, Fields.orElse, Fields.optional, List.lookup_cons,
    Json.asBool, Json.asText]

theorem OptimisticLock.ofJson_toJson (s : Section OptimisticLock) : ofJson (toJson s) = .ok s := by
  simp [ofJson, toJson, Fields.ofJson_object, ok_bind, Fields.orElse, List.lookup_cons, Json.asBool,
    Json.asText]

theorem AuditSection.ofJson_toJson (s : AuditSection) : ofJson s.toJson = .ok s := by
  simp [ofJson, toJson, Fields.ofJson_object, ok_bind, Fields.required, Fields.orElse,
    Fields.optional, List.lookup_cons, Json.asBool, Json.asText]

theorem PageStyle.ofName?_name (p : PageStyle) : ofName? p.name = some p := by
  cases p <;> decide

theorem PaginationSection.ofJson_toJson (s : PaginationSection) : ofJson s.toJson = .ok s := by
  have hstyle : Json.asOptional (Json.asName "a page style" PageStyle.ofName?)
      (Json.ofOption (fun p => .text p.name) s.style) = .ok s.style :=
    asOptional_ofOption (fun p _ => asName_text p.ofName?_name) (by simp)
  simp [ofJson, toJson, Fields.ofJson_object, ok_bind, Fields.orElse, Fields.optional, List.lookup_cons,
    Json.asBool, hstyle]

/-! ## Configurations -/

namespace Config

theorem lookup_sectionMember {α : Type} (key key' : String) (f : α → Json) (s : Option α) :
    (sectionMember key f s).lookup key' = if key' == key then s.map f else none := by
  cases s with
  | none => simp [sectionMember]
  | some a => cases h : key' == key <;> simp [sectionMember, List.lookup_cons, h]

theorem keys_sectionMember {α : Type} (key : String) (f : α → Json) (s : Option α) :
    ((sectionMember key f s).map Prod.fst).Sublist [key] := by
  cases s <;> simp [sectionMember]

/-- A section is decoded from its member, and is absent where it has none. -/
theorem optional_section {α : Type} {fs : Fields} {key : String} {f : α → Json}
    {item : Json → Decoded α} {s : Option α} (hlookup : fs.given.lookup key = s.map f)
    (h : ∀ a, item (f a) = .ok a) (hnull : ∀ a, f a ≠ .null) :
    fs.optional key item = .ok s := by
  cases s with
  | none => rw [Fields.optional, Fields.orElse, hlookup, Option.map_none]
  | some a =>
    rw [Fields.optional_eq hlookup, Json.asOptional.eq_2 _ _ (hnull a), h a]
    rfl

/-- Whether every table of a configuration is one that it can say. -/
def Decodable (c : Config) : Prop :=
  ∀ t ∈ c.tables, t.Decodable

theorem keys_members (c : Config) : (c.members.map Prod.fst).Sublist ["dialect",
    "ignore_statements", "tables", "logic_delete", "tenant", "optimistic_lock", "audit_columns",
    "pagination"] := by
  simp only [members, List.map_append]
  exact (((((List.Sublist.refl _).append (keys_sectionMember ..)).append
    (keys_sectionMember ..)).append (keys_sectionMember ..)).append (.refl _)).append
    (keys_sectionMember ..)

/-- A configuration is decoded from its own JSON. -/
theorem ofJson_toJson {c : Config} (h : c.Decodable) : ofJson c.toJson = .ok c := by
  have hdialect : Json.asName "a dialect" Dialect.ofName? (.text c.dialect.name) =
      .ok c.dialect :=
    asName_text c.dialect.ofName?_name
  have htables : Json.asList TableMetadata.ofJson (.array (c.tables.map TableMetadata.toJson)) =
      .ok c.tables :=
    asList_map fun t ht => TableMetadata.ofJson_toJson (h t ht)
  have haudits : Json.asList AuditSection.ofJson (.array (c.auditColumns.map AuditSection.toJson)) =
      .ok c.auditColumns :=
    asList_map fun s _ => s.ofJson_toJson
  have hlogic : Fields.optional ⟨c.members⟩ "logic_delete" LogicDelete.ofJson = .ok c.logicDelete :=
    optional_section (by simp [members, List.lookup_append, lookup_sectionMember, List.lookup_cons])
      LogicDelete.ofJson_toJson (by simp [LogicDelete.toJson])
  have htenant : Fields.optional ⟨c.members⟩ "tenant" Tenant.ofJson = .ok c.tenant :=
    optional_section (by simp [members, List.lookup_append, lookup_sectionMember, List.lookup_cons])
      Tenant.ofJson_toJson (by simp [Tenant.toJson])
  have hlock : Fields.optional ⟨c.members⟩ "optimistic_lock" OptimisticLock.ofJson =
      .ok c.optimisticLock :=
    optional_section (by simp [members, List.lookup_append, lookup_sectionMember, List.lookup_cons])
      OptimisticLock.ofJson_toJson (by simp [OptimisticLock.toJson])
  have hpagination : Fields.optional ⟨c.members⟩ "pagination" PaginationSection.ofJson =
      .ok c.pagination :=
    optional_section (by simp [members, List.lookup_append, lookup_sectionMember, List.lookup_cons])
      PaginationSection.ofJson_toJson (by simp [PaginationSection.toJson])
  rw [toJson, ofJson, Fields.ofJson_object (by decide) c.keys_members, ok_bind, hlogic, htenant,
    hlock, hpagination]
  simp [Fields.orElse, members, List.lookup_append, lookup_sectionMember, List.lookup_cons, ok_bind,
    hdialect, htables, haudits]

end Config

end RowPolicy
