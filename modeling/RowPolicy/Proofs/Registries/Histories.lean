import RowPolicy.Proofs.Registries.Names

/-!
# What a registry knows after its changes

Tables are registered and unregistered one after another. An entry is live after such a history if
its table was registered and no later change was about a name of it. A registry knows the live
entries and no others, each under all names of its table, and each change answers the entry that was
live under its name before: `Registry.changes_live`. One change is looked at in
`Registry.mem_change`, and the history by induction from its end.
-/

namespace RowPolicy.Registry

/-! ## Changes -/

/-- A change of a registry. -/
inductive Change where
  | register (t : TableMetadata)
  | unregister (table : String)

/-- The name that a change is about. -/
def Change.table : Change → String
  | register t => t.table
  | unregister table => table

/-- What a change answers, the entry that it replaces or removes, and the registry that it
leaves. -/
def change (r : Registry) : Change → Option TableMetadata × Registry
  | .register t => (r.resolve t.table, r.register t)
  | .unregister table => (r.resolve table, r.unregister table)

/-- What changes answer one after another, and the registry at the end. -/
def changes (r : Registry) : List Change → List (Option TableMetadata) × Registry
  | [] => ([], r)
  | c :: cs =>
    let changed := r.change c
    let rest := changed.2.changes cs
    (changed.1 :: rest.1, rest.2)

theorem changes_append (r : Registry) (cs ds : List Change) :
    r.changes (cs ++ ds) =
      ((r.changes cs).1 ++ ((r.changes cs).2.changes ds).1, ((r.changes cs).2.changes ds).2) := by
  induction cs generalizing r with
  | nil => rfl
  | cons c cs ih =>
    rw [List.cons_append, changes, ih]
    rfl

theorem length_changes (r : Registry) (cs : List Change) :
    (r.changes cs).1.length = cs.length := by
  induction cs generalizing r with
  | nil => rfl
  | cons c cs ih => rw [changes, List.length_cons, List.length_cons, ih]

/-- The tables of a list are registered in order. -/
theorem ofList_eq_changes (ts : List TableMetadata) :
    ofList ts = (empty.changes (ts.map .register)).2 := by
  rw [ofList]
  generalize empty = r
  induction ts generalizing r with
  | nil => rfl
  | cons t ts ih => exact ih (r.register t)

/-! ## Live entries -/

/-- Whether an entry is live after a history: its table was registered, and what came later was
about other tables. -/
def LiveAfter (cs : List Change) (t : TableMetadata) : Prop :=
  ∃ before after, cs = before ++ .register t :: after ∧
    ∀ c ∈ after, tableKey c.table ≠ tableKey t.table

theorem not_liveAfter_nil (t : TableMetadata) : ¬LiveAfter [] t := by
  rintro ⟨before, after, h, -⟩
  simp at h

/-- The last change makes its entry live, and leaves those of other tables as they were. -/
theorem liveAfter_concat {cs : List Change} {c : Change} {t : TableMetadata} :
    LiveAfter (cs ++ [c]) t ↔
      LiveAfter cs t ∧ tableKey t.table ≠ tableKey c.table ∨ c = .register t := by
  constructor
  · rintro ⟨before, after, h, hafter⟩
    rcases List.eq_nil_or_concat after with rfl | ⟨after, d, rfl⟩
    · exact .inr (List.append_inj_right' h rfl |> List.singleton_inj.mp)
    · rw [List.concat_eq_append] at h hafter
      rw [← List.cons_append, ← List.append_assoc] at h
      obtain ⟨rfl, hd⟩ := List.append_inj' h rfl
      obtain rfl := List.singleton_inj.mp hd
      refine .inl ⟨⟨before, after, rfl, fun x hx => hafter x (List.mem_append_left _ hx)⟩, ?_⟩
      exact (hafter _ (List.mem_append_right _ List.mem_cons_self)).symm
  · rintro (⟨⟨before, after, rfl, hafter⟩, hother⟩ | rfl)
    · refine ⟨before, after ++ [c], by simp, fun x hx => ?_⟩
      rcases List.mem_append.mp hx with hx | hx
      · exact hafter x hx
      · rw [List.mem_singleton.mp hx]
        exact hother.symm
    · exact ⟨cs, [], rfl, fun c hc => absurd hc List.not_mem_nil⟩

/-! ## Entries of a registry -/

variable {r : Registry}

/-- A table is resolved to the entry under its key. -/
theorem resolve_eq_some_iff {name : String} {t : TableMetadata} :
    r.resolve name = some t ↔ t ∈ r.entries ∧ tableKey t.table = tableKey name := by
  constructor
  · intro h
    exact ⟨List.mem_of_find?_eq_some h, by simpa using List.find?_some h⟩
  · rintro ⟨ht, hkey⟩
    cases hresolve : r.resolve name with
    | none => simpa [hkey] using List.find?_eq_none.mp hresolve t ht
    | some t' =>
      have ht' := List.mem_of_find?_eq_some hresolve
      have hkey' : tableKey t'.table = tableKey name := by simpa using List.find?_some hresolve
      rw [List.inj_on_of_nodup_map r.nodup ht' ht (hkey'.trans hkey.symm)]

/-- One change keeps the entries under other names, and puts its own under its name. -/
theorem mem_change {c : Change} {t : TableMetadata} :
    t ∈ (r.change c).2.entries ↔
      t ∈ r.entries ∧ tableKey t.table ≠ tableKey c.table ∨ c = .register t := by
  cases c with
  | register t' =>
    simp only [change, register, others, List.mem_append, List.mem_filter, List.mem_singleton,
      bne_iff_ne, Change.table, Change.register.injEq, eq_comm (a := t)]
  | unregister name =>
    simp only [change, unregister, others, List.mem_filter, bne_iff_ne, Change.table, reduceCtorEq,
      or_false]

/-- A registry has the entries that are live after its changes. -/
theorem mem_changes_empty {cs : List Change} {t : TableMetadata} :
    t ∈ (empty.changes cs).2.entries ↔ LiveAfter cs t := by
  induction cs using List.reverseRecOn with
  | nil => exact iff_of_false List.not_mem_nil (not_liveAfter_nil t)
  | append_singleton cs c ih =>
    rw [changes_append, liveAfter_concat, ← ih]
    exact mem_change

theorem resolve_changes_empty {cs : List Change} {name : String} {t : TableMetadata} :
    (empty.changes cs).2.resolve name = some t ↔
      LiveAfter cs t ∧ tableKey t.table = tableKey name := by
  rw [resolve_eq_some_iff, mem_changes_empty]

/-! ## Names of a registry -/

theorem nodup_tables (r : Registry) : (r.entries.map (·.table)).Nodup := by
  have h := r.nodup
  rw [← Function.comp_def tableKey, ← List.map_map] at h
  exact h.of_map tableKey

theorem mem_tableNames {name : String} :
    name ∈ r.tableNames ↔ ∃ t ∈ r.entries, t.table = name := by
  rw [tableNames, List.mem_mergeSort, List.mem_map]

theorem length_tableNames (r : Registry) : r.tableNames.length = r.size := by
  rw [tableNames, List.length_mergeSort, List.length_map, size]

/-- The names of tables ascend, and none is there twice. -/
theorem tableNames_ascending (r : Registry) : r.tableNames.Pairwise (· < ·) := by
  have hsorted : r.tableNames.Pairwise (· ≤ ·) := List.pairwise_mergeSort' (· ≤ ·) _
  have hnodup : r.tableNames.Nodup :=
    (List.mergeSort_perm _ _).nodup_iff.mpr r.nodup_tables
  exact (hsorted.and hnodup).imp fun h => lt_of_le_of_ne h.1 h.2

/-- There are as many entries as keys. -/
theorem size_eq_ncard (r : Registry) :
    r.size = {k | ∃ t ∈ r.entries, tableKey t.table = k}.ncard := by
  have hkeys : {k | ∃ t ∈ r.entries, tableKey t.table = k} =
      ↑(r.entries.map fun t => tableKey t.table).toFinset := by
    ext k
    simp
  rw [hkeys, Set.ncard_coe_finset, List.toFinset_card_of_nodup r.nodup, List.length_map, size]

/-! ## Histories -/

/-- **A registry knows the live entries.** After any changes of an empty registry, a name is
resolved to the entry that is live under its key; each change answered the entry that was live under
the key of its name; there are as many entries as keys with a live entry, and as many names of
tables, which ascend and are those of the live entries. A key is its own key, and a name in any
letter case, behind a schema or in quotes has the key of the name. -/
theorem changes_live (cs : List Change) :
    let answers := (empty.changes cs).1
    let r := (empty.changes cs).2
    (∀ name t, r.resolve name = some t ↔ LiveAfter cs t ∧ tableKey t.table = tableKey name) ∧
      answers.length = cs.length ∧
      (∀ before c after, cs = before ++ c :: after → ∃ answer,
        answers[before.length]? = some answer ∧
          ∀ t, answer = some t ↔ LiveAfter before t ∧ tableKey t.table = tableKey c.table) ∧
      r.size = {k | ∃ t, LiveAfter cs t ∧ tableKey t.table = k}.ncard ∧
      r.tableNames.length = r.size ∧
      r.tableNames.Pairwise (· < ·) ∧
      (∀ name, name ∈ r.tableNames ↔ ∃ t, LiveAfter cs t ∧ t.table = name) ∧
      ∀ name, tableKey (tableKey name) = tableKey name ∧
        (∀ schema, tableKey (schema ++ "." ++ name) = tableKey name) ∧
        (∀ opening closing, Quotes opening.toList → Quotes closing.toList →
          tableKey (opening ++ name ++ closing) = tableKey name) ∧
        ∀ name', Text.sameName name' name = true → tableKey name' = tableKey name := by
  intro answers r
  refine ⟨fun name t => resolve_changes_empty, length_changes _ _, ?_, ?_, length_tableNames r,
    tableNames_ascending r, fun name => ?_, fun name => ⟨tableKey_tableKey name,
      fun schema => tableKey_dotted schema name, fun _ _ ho hc => tableKey_quoted ho hc name,
      fun name' h => tableKey_congr (Text.sameName_iff.mp h)⟩⟩
  · rintro before c after rfl
    refine ⟨(empty.changes before).2.resolve c.table, ?_, fun t => resolve_changes_empty⟩
    have hanswers : answers = (empty.changes before).1 ++
        ((empty.changes before).2.changes (c :: after)).1 := by
      simp only [answers, changes_append]
    rw [hanswers, List.getElem?_append_right (by rw [length_changes]), length_changes, Nat.sub_self]
    cases c <;> rfl
  · rw [size_eq_ncard]
    simp only [r, mem_changes_empty]
  · rw [mem_tableNames]
    simp only [r, mem_changes_empty]

end RowPolicy.Registry
