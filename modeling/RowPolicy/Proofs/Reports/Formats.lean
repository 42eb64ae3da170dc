import RowPolicy.Proofs.Reports.Rows
import RowPolicy.Proofs.Texts.RoundTrips

/-!
# One result in three formats

The command shows a result as text, as JSON, or as a table. The rows of the table are the statements
that are read from the resulting text, while text and JSON show the result as it is. So the formats
agree exactly where that text is read as statements of the kinds that the result has
(`run_formats`), and they do where the policies leave plain statements. A string that ends in a
backslash in front of a quote is printed so that the text goes on behind it as SQL.
-/

namespace RowPolicy.CommandLine

open Sql

/-! ## Runs up to the format -/

/-- What a run applies policies to, whatever its format. -/
structure Session where
  sql : String
  enforcer : Enforcer (Except PolicyError)
  context : Context

/-- What the arguments and the configuration describe. -/
def session (a : Arguments) (stdin : String) (config : ConfigFile) :
    Except CommandError Session := do
  let sql ← textOf a stdin
  let config ← config.load
  let (enforcer, registry) ← ofPolicies (config.build (m := Except PolicyError))
  return ⟨sql, enforcer, ← contextOf a registry⟩

/-- What comes of the text of a session. -/
def Session.report (x : Session) : Except PolicyError Report :=
  Report.of x.sql <$> x.enforcer.parse x.sql x.context

/-- A run in a format prints the report of its session. -/
theorem run_eq (a : Arguments) (stdin : String) (config : ConfigFile) (f : Format) :
    run { a with format := some f } stdin config =
      session a stdin config >>= fun x => ofPolicies x.report >>= fun r =>
        ofPolicies (r.print x.enforcer.dialect f) := by
  have hreport : ∀ x : Session, ofPolicies x.report =
      Report.of x.sql <$> ofPolicies (x.enforcer.parse x.sql x.context) := by
    intro x
    unfold Session.report
    cases x.enforcer.parse x.sql x.context <;> rfl
  simp only [run, session, hreport, bind_assoc, pure_bind, bind_map_left]
  rfl

variable {a : Arguments} {stdin : String} {config : ConfigFile} {x : Session} {r : Report}

theorem run_eq_of_report (hx : session a stdin config = .ok x) (hr : x.report = .ok r)
    (f : Format) : run { a with format := some f } stdin config =
      ofPolicies (r.print x.enforcer.dialect f) := by
  rw [run_eq, hx]
  show (ofPolicies x.report >>= fun r => ofPolicies (r.print x.enforcer.dialect f)) = _
  rw [hr]
  rfl

/-- The table of a result is that of the statements that its text is read as. -/
theorem run_table_eq (hx : session a stdin config = .ok x) (hr : x.report = .ok r)
    (henforced : r.enforced = true) :
    run { a with format := some .table } stdin config =
      match parseStatements x.enforcer.dialect r.sql with
      | .ok ss => .ok (boxed ["#", "kind", "sql"] (Report.rows ss) ++
          "(" ++ toString r.kinds.length ++ " statements)\n")
      | .error fault => .error (.policies (.malformed r.sql fault.message)) := by
  rw [run_eq_of_report hx hr, Report.print, Report.table, if_pos henforced]
  cases parseStatements x.enforcer.dialect r.sql <;> rfl

/-- A run that succeeds has a session and a report. -/
theorem exists_report {f : Format} {out : String}
    (h : run { a with format := some f } stdin config = .ok out) :
    ∃ x r, session a stdin config = .ok x ∧ x.report = .ok r ∧
      r.print x.enforcer.dialect f = .ok out := by
  have hpolicies : ∀ {α : Type} {y : Except PolicyError α} {b : α},
      ofPolicies y = .ok b → y = .ok b := by
    intro α y b hy
    cases y with
    | error e => cases hy
    | ok b' => exact congrArg Except.ok (Except.ok.inj hy)
  rw [run_eq] at h
  obtain ⟨x, hx, h⟩ := bind_eq_ok_iff.mp h
  obtain ⟨r, hr, h⟩ := bind_eq_ok_iff.mp h
  exact ⟨x, r, hx, hpolicies hr, hpolicies h⟩

/-! ## Statements left by the policies -/

/-- What is left of plain statements is their text, and their kinds. -/
theorem Session.report_eq_of_plain {ss left : List Statement} (hr : x.report = .ok r)
    (henforced : r.enforced = true)
    (hread : parseStatements x.enforcer.dialect x.sql = .ok ss)
    (hleft : ss.mapM (x.enforcer.process x.context) = .ok left)
    (hplain : ∀ s ∈ left, s.isPlain x.enforcer.dialect = true) :
    r.sql = (Enforced.ofStatements left).sql ∧ r.kinds = left.map (·.kind) := by
  obtain ⟨out, hout, rfl⟩ := map_eq_ok_iff.mp hr
  have hallow : x.enforcer.guard x.context = true := by
    by_contra hallow
    have hnone : x.enforcer.parse x.sql x.context = .ok none := by
      unfold Enforcer.parse
      rw [if_neg hallow]
      rfl
    rw [hnone] at hout
    cases hout
    cases henforced
  rw [Enforcer.parse_eq hallow hread, hleft] at hout
  obtain rfl : assemble (left.map Statement.printed) = out := Except.ok.inj hout
  rw [Enforcer.assemble_printed fun s hs =>
    Statement.isBlankText_render (hplain s hs)] at henforced ⊢
  split at henforced
  · cases henforced
  · rename_i hne
    rw [if_neg hne]
    exact ⟨rfl, rfl⟩

theorem map_kindName_injective {ss : List Statement} {kinds : List StatementKind} :
    ss.map (·.kind.name) = kinds.map StatementKind.name ↔ ss.map (·.kind) = kinds := by
  have hname : Function.Injective StatementKind.name := by
    intro k l h
    cases k <;> cases l <;> first | rfl | exact absurd h (by decide)
  have hkinds : ss.map (·.kind.name) = (ss.map (·.kind)).map StatementKind.name := by
    rw [List.map_map]
    rfl
  rw [hkinds]
  exact (List.map_injective_iff.mpr hname).eq_iff

/-! ## Formats -/

/-- **The formats agree where the result is read as the statements it has.** A run that succeeds as
text succeeds as JSON, with the same report. If policies were applied, the run as a table fails
where the resulting text is no SQL, and it has one row for each kind of the report, in order and of
that kind, if and only if the text is read as statements of these kinds. Where the policies leave
plain statements, the rows are these statements, and as many are counted below them. -/
theorem run_formats {out : String}
    (h : run { a with format := some .text } stdin config = .ok out) :
    ∃ x r, session a stdin config = .ok x ∧ x.report = .ok r ∧ out = r.sql ++ "\n" ∧
      run { a with format := some .json } stdin config = .ok (r.toJson.pretty ++ "\n") ∧
      (r.enforced = true →
        (∀ fault, parseStatements x.enforcer.dialect r.sql = .error fault →
          run { a with format := some .table } stdin config =
            .error (.policies (.malformed r.sql fault.message))) ∧
        ((∃ table, run { a with format := some .table } stdin config = .ok table ∧
            tableKinds table = r.kinds.map StatementKind.name) ↔
          ∃ ss, parseStatements x.enforcer.dialect r.sql = .ok ss ∧ ss.map (·.kind) = r.kinds) ∧
        ∀ ss left, parseStatements x.enforcer.dialect x.sql = .ok ss →
          ss.mapM (x.enforcer.process x.context) = .ok left →
          (∀ s ∈ left, s.isPlain x.enforcer.dialect = true) →
          ∃ table, run { a with format := some .table } stdin config = .ok table ∧
            table = boxed ["#", "kind", "sql"] (Report.rows left) ++
              "(" ++ toString left.length ++ " statements)\n" ∧
            tableKinds table = r.kinds.map StatementKind.name) := by
  obtain ⟨x, r, hx, hr, hprint⟩ := exists_report h
  obtain rfl : r.sql ++ "\n" = out := Except.ok.inj hprint
  refine ⟨x, r, hx, hr, rfl, run_eq_of_report hx hr .json, fun henforced => ?_⟩
  have htable := run_table_eq hx hr henforced
  refine ⟨fun fault hfault => by rw [htable, hfault], ?_, ?_⟩
  · rw [htable]
    cases hread : parseStatements x.enforcer.dialect r.sql with
    | error fault => simp
    | ok ss =>
      simp only [Except.ok.injEq, exists_eq_left', tableKinds_boxed, map_kindName_injective]
  · intro ss left hread hleft hplain
    obtain ⟨hsql, hkinds⟩ := Session.report_eq_of_plain hr henforced hread hleft hplain
    have hagain : parseStatements x.enforcer.dialect r.sql = .ok left := by
      rw [hsql]
      exact parseStatements_printed hplain
    rw [hagain] at htable
    refine ⟨_, htable, ?_, ?_⟩
    · rw [hkinds, List.length_map]
    · rw [tableKinds_boxed, map_kindName_injective, hkinds]

/-! ## Two statements, and one that is read as two -/

/-- The session of a text without a configuration and further arguments. -/
def Session.ofText (sql : String) : Session where
  sql := sql
  enforcer := { guard := Guard.ignoring [] }
  context := Context.ofRegistry .empty

/-- A select and a deletion have a row each. -/
theorem run_formats_selectDelete :
    let a : Arguments := { sql := "SELECT 1; DELETE FROM t" }
    run { a with format := some .text } "" .absent = .ok "SELECT 1;DELETE FROM t\n" ∧
      ∃ table, run { a with format := some .table } "" .absent = .ok table ∧
        tableKinds table = ["select", "delete"] := by
  intro a
  have htext : run { a with format := some .text } "" .absent = .ok "SELECT 1;DELETE FROM t\n" :=
    eq_ok_of_toOption (by decide +kernel)
  refine ⟨htext, ?_⟩
  obtain ⟨x, r, hx, hr, -, -, hformats⟩ := run_formats htext
  have hsession : session a "" .absent = .ok (.ofText a.sql) := by with_unfolding_all rfl
  obtain rfl := Except.ok.inj (hsession.symm.trans hx)
  have hreport : (Session.ofText a.sql).report =
      .ok ⟨"SELECT 1;DELETE FROM t", true, [.select, .delete]⟩ :=
    eq_ok_of_toOption (by decide +kernel)
  obtain rfl := Except.ok.inj (hreport.symm.trans hr)
  have hkinds : List.map Statement.kind <$> parseStatements .generic "SELECT 1;DELETE FROM t" =
      .ok [.select, .delete] := eq_ok_of_toOption (by decide +kernel)
  exact (hformats rfl).2.1.mpr (map_eq_ok_iff.mp hkinds)

/-- A string with a backslash and a quote is one select as text and as JSON. As a table it is a
select and a deletion, or no SQL at all. -/
theorem not_formats_backslash :
    let a : Arguments := { sql := "SELECT 'a\\'';DELETE FROM users --'" }
    let r : Report := ⟨"SELECT 'a\\';DELETE FROM users --'", true, [.select]⟩
    run { a with format := some .text } "" .absent =
        .ok "SELECT 'a\\';DELETE FROM users --'\n" ∧
      run { a with format := some .json } "" .absent = .ok (r.toJson.pretty ++ "\n") ∧
      (∃ table, run { a with format := some .table } "" .absent = .ok table ∧
        tableKinds table = ["select", "delete"]) ∧
      run { sql := "SELECT 'a\\''b'", format := some .text } "" .absent =
        .ok "SELECT 'a\\'b'\n" ∧
      ¬∃ table, run { sql := "SELECT 'a\\''b'", format := some .table } "" .absent = .ok table := by
  intro a r
  have hsession : session a "" .absent = .ok (.ofText a.sql) := by with_unfolding_all rfl
  have hreport : (Session.ofText a.sql).report = .ok r := eq_ok_of_toOption (by decide +kernel)
  have hkinds : List.map Statement.kind <$> parseStatements .generic r.sql =
      .ok [.select, .delete] := eq_ok_of_toOption (by decide +kernel)
  obtain ⟨ss, hread, hss⟩ := map_eq_ok_iff.mp hkinds
  have htable := run_table_eq hsession hreport rfl
  rw [show (Session.ofText a.sql).enforcer.dialect = .generic from rfl, hread] at htable
  have htext : run { sql := "SELECT 'a\\''b'", format := some .text } "" .absent =
      .ok "SELECT 'a\\'b'\n" := eq_ok_of_toOption (by decide +kernel)
  refine ⟨run_eq_of_report hsession hreport .text, run_eq_of_report hsession hreport .json,
    ⟨_, htable, ?_⟩, htext, ?_⟩
  · rw [tableKinds_boxed]
    exact map_kindName_injective.mpr hss
  · rintro ⟨table, htable⟩
    have hfails : (run { sql := "SELECT 'a\\''b'", format := some .table } "" .absent).toOption =
        none := by decide +kernel
    rw [htable] at hfails
    cases hfails

end RowPolicy.CommandLine
