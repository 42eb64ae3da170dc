import RowPolicy.Proofs.Joins.Walk

/-!
# Runs of a walk

What is asked, and in which state, is seen from the outside: a `Running` runs computations from a
state to a state and an answer or an error. A walk that gets to its end has asked for all tables
(`walk_run_ok`), does so whenever they can be asked for and nothing is in the way (`run_walk_ok`),
and fails at a question or, where the caller is strict, behind some of them (`walk_run_error`).
-/

namespace RowPolicy.Sql

/-! ## Running -/

/-- A way to run the computations of a monad from a state, to a state and an answer or an error. -/
structure Running (m : Type → Type) [Monad m] [MonadExceptOf PolicyError m] (σ : Type) where
  run {α : Type} : m α → σ → Except PolicyError α × σ
  run_pure {α : Type} (a : α) (st : σ) : run (pure a) st = (.ok a, st)
  run_bind {α β : Type} (x : m α) (f : α → m β) (st : σ) :
    run (x >>= f) st = match run x st with
      | (.ok a, st') => run (f a) st'
      | (.error e, st') => (.error e, st')
  run_throw {α : Type} (e : PolicyError) (st : σ) : run (throw e : m α) st = (.error e, st)

/-- Computations with a state, which stays when one fails. -/
def Running.stateful (σ : Type) : Running (ExceptT PolicyError (StateM σ)) σ where
  run x st := x.run st
  run_pure _ _ := rfl
  run_bind x f st := by
    change (ExceptT.run x >>= ExceptT.bindCont f) st = _
    change ExceptT.bindCont f (ExceptT.run x st).1 (ExceptT.run x st).2 = _
    rcases ExceptT.run x st with ⟨_ | _, _⟩ <;> rfl
  run_throw _ _ := rfl

/-- Computations without a state. -/
def Running.plain : Running (Except PolicyError) Unit where
  run x st := (x, st)
  run_pure _ _ := rfl
  run_bind x f _ := by cases x <;> rfl
  run_throw _ _ := rfl

namespace Running

variable {m : Type → Type} [Monad m] [MonadExceptOf PolicyError m] {σ : Type} (R : Running m σ)

theorem run_bind_ok {α β : Type} {x : m α} {f : α → m β} {st st' : σ} {b : β} :
    R.run (x >>= f) st = (.ok b, st') ↔
      ∃ a u, R.run x st = (.ok a, u) ∧ R.run (f a) u = (.ok b, st') := by
  rw [R.run_bind]
  rcases R.run x st with ⟨_ | a, u⟩ <;> simp

theorem run_bind_error {α β : Type} {x : m α} {f : α → m β} {st st' : σ} {e : PolicyError} :
    R.run (x >>= f) st = (.error e, st') ↔
      R.run x st = (.error e, st') ∨
        ∃ a u, R.run x st = (.ok a, u) ∧ R.run (f a) u = (.error e, st') := by
  rw [R.run_bind]
  rcases R.run x st with ⟨_ | a, u⟩ <;> simp

theorem run_unsupported (strict : Bool) (construct fragment : String) (st : σ) :
    R.run (unsupported strict construct fragment) st =
      (if strict then .error (.unsupported construct fragment) else .ok (), st) := by
  cases strict <;> simp [unsupported, R.run_throw, R.run_pure]

theorem run_refuseLoss (strict : Bool) (lost : List Expr) (r : Relation) (st : σ) :
    R.run (refuseLoss strict lost r) st =
      (if strict ∧ lost ≠ [] then .error (.unsupported "outer join without ON" r.render)
        else .ok (), st) := by
  cases lost <;> cases strict <;> simp [refuseLoss, unsupported, R.run_throw, R.run_pure]

section Questions

variable [LawfulMonad m] {κ α : Type} {ask : κ → m α}

/-- Asking several questions goes well where the first does, and then the others. -/
theorem run_mapM_cons_ok {k : κ} {ks : List κ} {as : List α} {st st' : σ} :
    R.run ((k :: ks).mapM ask) st = (.ok as, st') ↔
      ∃ a u bs, R.run (ask k) st = (.ok a, u) ∧ R.run (ks.mapM ask) u = (.ok bs, st') ∧
        as = a :: bs := by
  simp only [List.mapM_cons, R.run_bind_ok, R.run_pure, Prod.mk.injEq, Except.ok.injEq]
  constructor
  · rintro ⟨a, u, ha, bs, u', hbs, rfl, rfl⟩
    exact ⟨a, u, bs, ha, hbs, rfl⟩
  · rintro ⟨a, u, bs, ha, hbs, rfl⟩
    exact ⟨a, u, ha, bs, st', hbs, rfl, rfl⟩

/-- Each of several questions that go well gets its answer. -/
theorem exists_answer {ks : List κ} {as : List α} {st st' : σ}
    (h : R.run (ks.mapM ask) st = (.ok as, st')) {k : κ} (hk : k ∈ ks) :
    ∃ a u u', (k, a) ∈ ks.zip as ∧ R.run (ask k) u = (.ok a, u') := by
  induction ks generalizing st as with
  | nil => exact absurd hk List.not_mem_nil
  | cons k' ks ih =>
    obtain ⟨a, u, bs, ha, hbs, rfl⟩ := R.run_mapM_cons_ok.mp h
    rcases List.mem_cons.mp hk with rfl | hk
    · exact ⟨a, st, u, List.mem_cons_self, ha⟩
    · obtain ⟨b, v, v', hmem, hb⟩ := ih hbs hk
      exact ⟨b, v, v', List.mem_cons_of_mem _ hmem, hb⟩

/-- What is answered is answered to the question. -/
theorem answers_of_mem_zip {ks : List κ} {as : List α} {st st' : σ}
    (h : R.run (ks.mapM ask) st = (.ok as, st')) {k : κ} {a : α} (hmem : (k, a) ∈ ks.zip as) :
    ∃ u u', R.run (ask k) u = (.ok a, u') := by
  induction ks generalizing st as with
  | nil => simp at hmem
  | cons k' ks ih =>
    obtain ⟨b, u, bs, hb, hbs, rfl⟩ := R.run_mapM_cons_ok.mp h
    rcases List.mem_cons.mp hmem with heq | hmem
    · cases heq
      exact ⟨st, u, hb⟩
    · exact ih hbs hmem

/-- Asking several questions fails where the first fails, or a later one. -/
theorem run_mapM_cons_error {k : κ} {ks : List κ} {e : PolicyError} {st st' : σ} :
    R.run ((k :: ks).mapM ask) st = (.error e, st') ↔
      R.run (ask k) st = (.error e, st') ∨
        ∃ a u, R.run (ask k) st = (.ok a, u) ∧ R.run (ks.mapM ask) u = (.error e, st') := by
  simp only [List.mapM_cons, R.run_bind_error, R.run_pure, Prod.mk.injEq, reduceCtorEq, false_and,
    and_false, exists_false, or_false]

end Questions

end Running

/-! ## Runs of a walk -/

/-- The tables that steps ask for, in order. -/
def leavesOf (steps : List Step) : List Leaf :=
  steps.filterMap Step.leaf?

theorem leavesOf_append (steps steps' : List Step) :
    leavesOf (steps ++ steps') = leavesOf steps ++ leavesOf steps' :=
  List.filterMap_append

/-- The predicates that reach an outer join without `ON`. -/
def lostOf (as : List Answer) : List Expr :=
  as.filterMap fun x =>
    match x.1.home with
    | .lost _ => x.2
    | _ => none

/-- Whether a relation is refused. -/
def Refused (steps : List Step) : Prop :=
  ∃ construct fragment, .refuse construct fragment ∈ steps

/-- Whether the join that a predicate of a table is lost at ends behind the table, for all tables
but those of home `h`. -/
def Closed (h : Home) : List Step → Prop
  | [] => True
  | .ask l :: rest =>
    (l.home = h ∨ ∀ c, l.home = .lost c → ∃ r, .close c r ∈ rest) ∧ Closed h rest
  | _ :: rest => Closed h rest

theorem lostOf_eq_nil {as : List Answer} :
    lostOf as = [] ↔ ∀ x ∈ as, ∀ c, x.1.home = .lost c → x.2 = none := by
  simp only [lostOf, List.filterMap_eq_nil_iff]
  refine forall₂_congr fun x _ => ?_
  cases x.1.home <;> simp

section Runs

variable {m : Type → Type} [Monad m] [LawfulMonad m] [MonadExceptOf PolicyError m] {σ : Type}
  (R : Running m σ) {strict : Bool} {ask : Leaf → m (Option Expr)}

/-- A walk that gets to its end has asked for all tables; where the caller is strict, it has met
no relation to refuse and lost no predicate. -/
theorem walk_run_ok {steps : List Step} (hc : Closed .selection steps) {seen as : List Answer}
    {st st' : σ} (h : R.run (walk strict ask seen steps) st = (.ok as, st')) :
    ∃ ps, R.run ((leavesOf steps).mapM ask) st = (.ok ps, st') ∧
      as = seen ++ (leavesOf steps).zip ps ∧
      (strict = true → ¬Refused steps ∧ ∀ x ∈ as, ∀ c, x.1.home = .lost c →
        (x ∈ seen → ∃ r, .close c r ∈ steps) → x.2 = none) := by
  -- Of the answers seen, only those whose join has its end ahead are known to lose nothing: the
  -- ends of the others are behind, where the walk has looked at them.
  induction steps generalizing seen st with
  | nil =>
    rw [walk, R.run_pure] at h
    simp only [Prod.mk.injEq, Except.ok.injEq] at h
    obtain ⟨rfl, rfl⟩ := h
    refine ⟨[], by simp [leavesOf, R.run_pure], by simp [leavesOf], fun _ => ⟨?_, ?_⟩⟩
    · simp [Refused]
    · intro x hx c _ hin
      simpa using hin hx
  | cons step steps ih =>
    cases step with
    | ask l =>
      rw [walk] at h
      obtain ⟨p, u, hp, h⟩ := R.run_bind_ok.mp h
      obtain ⟨ps, hps, rfl, hstrict⟩ := ih hc.2 h
      refine ⟨p :: ps, R.run_mapM_cons_ok.mpr ⟨p, u, ps, hp, hps, rfl⟩,
        by simp [leavesOf, Step.leaf?], fun hs => ⟨?_, ?_⟩⟩
      · simpa [Refused] using (hstrict hs).1
      · intro x hx c hhome hin
        refine (hstrict hs).2 x hx c hhome fun hseen => ?_
        rcases List.mem_append.mp hseen with hseen | hseen
        · simpa using hin hseen
        · rw [List.mem_singleton] at hseen
          subst hseen
          exact (hc.1.resolve_left (by simp [hhome])) c hhome
    | refuse construct fragment =>
      rw [walk] at h
      obtain ⟨_, u, hu, h⟩ := R.run_bind_ok.mp h
      rw [R.run_unsupported] at hu
      cases strict with
      | true => simp at hu
      | false =>
        simp only [Bool.false_eq_true, if_false, Prod.mk.injEq] at hu
        obtain ⟨-, rfl⟩ := hu
        obtain ⟨ps, hps, has, -⟩ := ih hc h
        exact ⟨ps, hps, has, by simp⟩
    | close c r =>
      rw [walk] at h
      obtain ⟨_, u, hu, h⟩ := R.run_bind_ok.mp h
      rw [R.run_refuseLoss] at hu
      split at hu
      · simp at hu
      · rename_i hnone
        simp only [Prod.mk.injEq] at hu
        obtain ⟨-, rfl⟩ := hu
        obtain ⟨ps, hps, rfl, hstrict⟩ := ih hc h
        refine ⟨ps, hps, rfl, fun hs => ⟨by simpa [Refused] using (hstrict hs).1, ?_⟩⟩
        intro x hx c' hhome hin
        by_cases hcc : c' = c
        -- The join that ends here has just been found to lose nothing of what is seen.
        · subst hcc
          by_cases hseen : x ∈ seen
          · have hnil : answersAt (.lost c') seen = [] := by
              by_contra hne
              exact hnone ⟨hs, hne⟩
            have := List.filterMap_eq_nil_iff.mp hnil x hseen
            rwa [if_pos hhome] at this
          · exact (hstrict hs).2 x hx c' hhome fun h => absurd h hseen
        · refine (hstrict hs).2 x hx c' hhome fun hseen => ?_
          obtain ⟨r', hr'⟩ := hin hseen
          exact ⟨r', by simpa [hcc] using hr'⟩

/-- A walk gets to its end where all tables can be asked for and, where the caller is strict,
nothing is in the way. -/
theorem run_walk_ok {steps : List Step} {seen : List Answer} {ps : List (Option Expr)} {st st' : σ}
    (hps : R.run ((leavesOf steps).mapM ask) st = (.ok ps, st'))
    (hstrict : strict = true → ¬Refused steps ∧
      lostOf (seen ++ (leavesOf steps).zip ps) = []) :
    R.run (walk strict ask seen steps) st = (.ok (seen ++ (leavesOf steps).zip ps), st') := by
  induction steps generalizing seen st ps with
  | nil =>
    simp only [leavesOf, List.filterMap_nil, List.mapM_nil, R.run_pure, Prod.mk.injEq] at hps
    simp [walk, R.run_pure, leavesOf, hps.2]
  | cons step steps ih =>
    cases step with
    | ask l =>
      obtain ⟨p, u, ps, hp, hrest, rfl⟩ := R.run_mapM_cons_ok.mp hps
      have hseen : seen ++ (leavesOf (.ask l :: steps)).zip (p :: ps) =
          seen ++ [(l, p)] ++ (leavesOf steps).zip ps := by
        simp [leavesOf, Step.leaf?]
      rw [hseen] at hstrict ⊢
      refine R.run_bind_ok.mpr ⟨p, u, hp, ih hrest fun hs => ⟨?_, (hstrict hs).2⟩⟩
      simpa [Refused] using (hstrict hs).1
    | refuse construct fragment =>
      cases strict with
      | true => exact absurd ⟨construct, fragment, List.mem_cons_self⟩ (hstrict rfl).1
      | false =>
        rw [walk, R.run_bind, R.run_unsupported]
        exact ih hps (by simp)
    | close c r =>
      have hlost : ¬(strict = true ∧ answersAt (.lost c) seen ≠ []) := by
        rintro ⟨hs, hne⟩
        refine hne (List.filterMap_eq_nil_iff.mpr fun x hx => ?_)
        split
        · rename_i hhome
          exact lostOf_eq_nil.mp (hstrict hs).2 x (List.mem_append_left _ hx) c hhome
        · rfl
      rw [walk, R.run_bind, R.run_refuseLoss, if_neg hlost]
      exact ih hps fun hs => ⟨by simpa [Refused] using (hstrict hs).1, (hstrict hs).2⟩

/-- A walk that fails does so at a question for a table, or is refused behind some of them. -/
theorem walk_run_error {steps : List Step} {seen : List Answer} {e : PolicyError} {st st' : σ}
    (h : R.run (walk strict ask seen steps) st = (.error e, st')) :
    ∃ k, R.run (((leavesOf steps).take k).mapM ask) st = (.error e, st') ∨
      strict = true ∧ ∃ ps, R.run (((leavesOf steps).take k).mapM ask) st = (.ok ps, st') ∧
        ∃ construct fragment, e = .unsupported construct fragment := by
  induction steps generalizing seen st with
  | nil => simp [walk, R.run_pure] at h
  | cons step steps ih =>
    cases step with
    | ask l =>
      rcases R.run_bind_error.mp h with h | ⟨p, u, hp, h⟩
      · exact ⟨1, .inl (R.run_mapM_cons_error.mpr (.inl h))⟩
      · obtain ⟨k, h | ⟨hs, ps, hps, he⟩⟩ := ih h
        · exact ⟨k + 1, .inl (R.run_mapM_cons_error.mpr (.inr ⟨p, u, hp, h⟩))⟩
        · exact ⟨k + 1, .inr ⟨hs, p :: ps, R.run_mapM_cons_ok.mpr ⟨p, u, ps, hp, hps, rfl⟩, he⟩⟩
    | refuse construct fragment =>
      rw [walk, R.run_bind, R.run_unsupported] at h
      cases strict with
      | true =>
        simp only [if_true, Prod.mk.injEq, Except.error.injEq] at h
        obtain ⟨rfl, rfl⟩ := h
        exact ⟨0, .inr ⟨rfl, [], by simp [R.run_pure], construct, fragment, rfl⟩⟩
      | false => exact ih h
    | close c r =>
      rw [walk, R.run_bind, R.run_refuseLoss] at h
      split at h
      · rename_i heq
        split at heq
        · simp at heq
        · cases heq
          exact ih h
      · rename_i heq
        split at heq
        · rename_i hs
          cases heq
          cases h
          exact ⟨0, .inr ⟨hs.1, [], by simp [R.run_pure], _, _, rfl⟩⟩
        · simp at heq

end Runs

/-! ## Joins that lose predicates -/

theorem Closed.append {h : Home} {steps steps' : List Step} (hs : Closed h steps)
    (hs' : Closed h steps') : Closed h (steps ++ steps') := by
  induction steps with
  | nil => exact hs'
  | cons step steps ih =>
    cases step with
    | ask l =>
      refine ⟨hs.1.imp_right fun hl c hc => ?_, ih hs.2⟩
      obtain ⟨r, hr⟩ := hl c hc
      exact ⟨r, List.mem_append_left _ hr⟩
    | refuse construct fragment => exact ih hs
    | close c r => exact ih hs

/-- The end of a join makes up for what is lost at it. -/
theorem Closed.close {n : Nat} {steps : List Step} (hs : Closed (.lost n) steps) (h : Home)
    (r : Relation) : Closed h (steps ++ [.close n r]) := by
  induction steps with
  | nil => trivial
  | cons step steps ih =>
    cases step with
    | ask l =>
      refine ⟨.inr fun c hc => ?_, ih hs.2⟩
      rcases hs.1 with hl | hl
      · rw [hl, Home.lost.injEq] at hc
        exact ⟨r, List.mem_append_right _ (by simp [hc])⟩
      · obtain ⟨r', hr'⟩ := hl c hc
        exact ⟨r', List.mem_append_left _ hr'⟩
    | refuse construct fragment => exact ih hs
    | close c r => exact ih hs

/-- Nothing is lost behind an `ON`. -/
theorem Closed.on {n : Nat} {steps : List Step} (hs : Closed (.on n) steps) (h : Home) :
    Closed h steps := by
  induction steps with
  | nil => trivial
  | cons step steps ih =>
    cases step with
    | ask l => exact ⟨.inr (hs.1.elim (fun hl c hc => by simp [hl] at hc) id), ih hs.2⟩
    | refuse construct fragment => exact ih hs
    | close c r => exact ih hs

theorem steps_closed (s : Scope) (qualify : Bool) :
    (∀ t : JoinTree, ∀ n around, Closed (homeIn around) (t.steps s qualify n around)) ∧
    (∀ js, ∀ n around, Closed (homeIn around) (joinsSteps s qualify n around js)) ∧
    ∀ r : Relation, ∀ n around, Closed (homeIn around) (r.steps s qualify n around) := by
  refine JoinTree.induction ?tree ?nil ?cons ?nested ?leaf
  case tree =>
    intro relation joins ihr ihjs n around
    rw [JoinTree.steps]
    exact (ihr n around).append (ihjs _ around)
  case nil => exact fun n around => trivial
  case cons =>
    intro j js ihr ihjs n around
    rw [joinsSteps_cons]
    refine Closed.append ?_ (ihjs _ around)
    have hr := ihr n (⟨n, j.kind, j.on⟩ :: around)
    rw [Join.steps, Join.closing]
    -- An `ON` keeps what is behind it, an inner join hands it on, and any other loses it and ends.
    cases hon : j.on with
    | some e =>
      rw [hon, homeIn_on] at hr
      simpa using hr.on (homeIn around)
    | none =>
      cases hinner : j.kind.isInner with
      | true =>
        rw [hon, homeIn_inner n hinner] at hr
        simpa using hr
      | false =>
        rw [hon, homeIn_lost n hinner] at hr
        simpa using hr.close (homeIn around) j.relation
  case nested =>
    intro t naming ih n around
    rw [Relation.steps]
    exact ih n around
  case leaf =>
    intro r hr n around
    rw [Relation.steps_leaf s qualify hr, Relation.leafSteps]
    split
    · trivial
    · cases r.target? s qualify with
      | none => trivial
      | some t => exact ⟨.inl rfl, trivial⟩

theorem treesSteps_closed (s : Scope) (qualify : Bool) (ts : List JoinTree) (n : Nat) :
    Closed .selection (treesSteps s qualify n ts) := by
  induction ts generalizing n with
  | nil => trivial
  | cons t ts ih => exact ((steps_closed s qualify).1 t n []).append (ih (n + t.size))

end RowPolicy.Sql
