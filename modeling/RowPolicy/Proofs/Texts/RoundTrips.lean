import RowPolicy.Proofs.Grammar.Printing
import RowPolicy.Proofs.Grammar.Statements
import RowPolicy.Proofs.Texts.Batches

/-!
# Texts that are printed and read again

An enforcer without policies prints the statements that it has read. Plain statements are read back
from what it prints (`Enforcer.printer_roundTrips`), and so are the names and constants that keep
their content. A string with a backslash is not in a dialect where backslashes escape, since they
are printed as they are.
-/

namespace RowPolicy

open Sql

/-- The enforcer of a dialect that has no policies: it prints what it has read. -/
def Enforcer.printer (d : Dialect) : Enforcer (Except PolicyError) where
  dialect := d
  policies := []

/-! ## Plain statements -/

/-- **Plain statements are read back from what is printed for them.** -/
theorem Sql.parseStatements_printed {d : Dialect} {ss : List Statement}
    (hplain : ∀ s ∈ ss, s.isPlain d = true) :
    parseStatements d (Enforced.ofStatements ss).sql = .ok ss := by
  have hscan : (Lexeme.scan d (Enforced.ofStatements ss).sql).map (List.map Lexeme.token) =
      .ok (Token.separated ";" (ss.map Statement.tokens)) := by
    by_cases hempty : ss = []
    · subst hempty
      rfl
    · exact (Dialect.Spells.separated (d := d) .followed Statement.render Statement.tokens hempty
        fun s hs => Statement.spells (hplain s hs)).scan
  cases hls : Lexeme.scan d (Enforced.ofStatements ss).sql with
  | error fault =>
    rw [hls] at hscan
    cases hscan
  | ok ls =>
    rw [hls] at hscan
    exact parseStatements_of_tokens hplain hls (Except.ok.inj hscan)

/-- Whether a text is read as plain statements. -/
def Sql.isPlainText (d : Dialect) (sql : String) : Bool :=
  match parseStatements d sql with
  | .ok ss => ss.all (·.isPlain d)
  | .error _ => false

theorem Sql.exists_of_isPlainText {d : Dialect} {sql : String} (h : isPlainText d sql = true) :
    ∃ ss, parseStatements d sql = .ok ss ∧ ∀ s ∈ ss, s.isPlain d = true := by
  unfold isPlainText at h
  split at h
  · rename_i ss hread
    exact ⟨ss, hread, List.all_eq_true.mp h⟩
  · cases h

namespace Enforcer

/-- What is printed for plain statements: the text itself where there are none. -/
theorem enforce_printer {d : Dialect} {sql : String} {ss : List Statement} (c : Context)
    (hread : parseStatements d sql = .ok ss) (hplain : ∀ s ∈ ss, s.isPlain d = true) :
    (printer d).enforce sql c =
      .ok (if ss = [] then sql else (Enforced.ofStatements ss).sql) := by
  have hprocess : ss.mapM ((printer d).process c) = .ok ss :=
    mapM_eq_ok_iff.mpr (List.forall₂_same.mpr fun _ _ => rfl)
  have hparse : (printer d).parse sql c =
      .ok (if ss = [] then none else some (.ofStatements ss)) := by
    rw [parse_eq rfl hread, hprocess]
    rw [← assemble_printed fun s hs => Statement.isBlankText_render (hplain s hs)]
    rfl
  unfold enforce
  rw [hparse]
  by_cases hempty : ss = []
  · subst hempty
    rfl
  · simp only [hempty]
    rfl

/-- **Printed statements are read back.** Whatever the dialect, a text of plain statements is
printed, and what is printed is read as the same statements. Beyond these, the printed form of a
quoted name, of a string constant and of a string between dollars is read as the same token if and
only if its content is one that survives its quotes. -/
theorem printer_roundTrips (d : Dialect) :
    (∀ sql ss c, parseStatements d sql = .ok ss → (∀ s ∈ ss, s.isPlain d = true) →
      ∃ out, (printer d).enforce sql c = .ok out ∧ parseStatements d out = .ok ss) ∧
    ∀ t : Enclosed, t.isOf d = true →
      (Lexeme.scan d t.text = .ok [⟨t.token, false⟩] ↔ t.readsBack d = true) := by
  refine ⟨fun sql ss c hread hplain => ⟨_, enforce_printer c hread hplain, ?_⟩,
    fun _ ht => Enclosed.scan_text_iff d ht⟩
  split
  · rename_i hempty
    rw [hread]
  · exact parseStatements_printed hplain

/-- Words are printed in capitals and one alias gains its `AS`, and the text is read as before. -/
theorem printer_roundTrips_query :
    (printer .mysql).enforce
        "select `b``s`, 'it''s' x from t y join u on y.id = u.id; select * from t" .empty =
      .ok "SELECT `b``s`, 'it''s' AS x FROM t y JOIN u ON y.id = u.id;SELECT * FROM t" ∧
    parseStatements .mysql
        "SELECT `b``s`, 'it''s' AS x FROM t y JOIN u ON y.id = u.id;SELECT * FROM t" =
      parseStatements .mysql
        "select `b``s`, 'it''s' x from t y join u on y.id = u.id; select * from t" ∧
    (Enclosed.name '"' "12\"").isOf .postgresql = true ∧
    Lexeme.scan .postgresql "\"12\"\"\"" = .ok [⟨.quotedWord '"' "12\"", false⟩] := by
  have hprinted : (printer .mysql).enforce
      "select `b``s`, 'it''s' x from t y join u on y.id = u.id; select * from t" .empty =
      .ok "SELECT `b``s`, 'it''s' AS x FROM t y JOIN u ON y.id = u.id;SELECT * FROM t" :=
    eq_ok_of_toOption (by decide +kernel)
  obtain ⟨ss, hread, hplain⟩ := exists_of_isPlainText (d := .mysql)
    (show isPlainText .mysql
      "select `b``s`, 'it''s' x from t y join u on y.id = u.id; select * from t" = true by
      decide +kernel)
  obtain ⟨out, hout, hagain⟩ := (printer_roundTrips .mysql).1 _ ss .empty hread hplain
  obtain rfl := Except.ok.inj (hprinted.symm.trans hout)
  have hname := (printer_roundTrips .postgresql).2 (.name '"' "12\"") (by decide)
  exact ⟨hprinted, hagain.trans hread.symm, by decide, hname.mpr (by decide)⟩

end Enforcer

/-! ## Backslashes -/

/-- Texts of the same statements are printed alike. -/
theorem Enforcer.parse_printer_of_eq {d : Dialect} {sql sql' : String} {c : Context}
    {out : Option Enforced} (h : parseStatements d sql = parseStatements d sql')
    (hout : (Enforcer.printer d).parse sql c = .ok out) :
    (Enforcer.printer d).parse sql' c = .ok out := by
  have hdialect : (Enforcer.printer d).dialect = d := rfl
  unfold Enforcer.parse Enforcer.statements at hout ⊢
  rw [hdialect] at hout ⊢
  rw [← h]
  cases hread : parseStatements d sql with
  | error fault =>
    rw [hread] at hout
    cases hout
  | ok ss => rwa [hread] at hout

/-- A backslash is printed as it is, and read back with the letter behind it as a control. -/
theorem Enforcer.not_roundTrips_backslash :
    (Enforcer.printer .mysql).parse "SELECT 'a\\\\b'" .empty =
        .ok (some ⟨"SELECT 'a\\b'", [.select]⟩) ∧
      (Enforcer.printer .mysql).parse "SELECT 'a\\b'" .empty =
        .ok (some ⟨"SELECT 'a\x08'", [.select]⟩) ∧
      parseStatements .mysql "SELECT 'a\\b'" ≠ parseStatements .mysql "SELECT 'a\\\\b'" := by
  have hfirst : (Enforcer.printer .mysql).parse "SELECT 'a\\\\b'" .empty =
      .ok (some ⟨"SELECT 'a\\b'", [.select]⟩) := eq_ok_of_toOption (by decide +kernel)
  have hsecond : (Enforcer.printer .mysql).parse "SELECT 'a\\b'" .empty =
      .ok (some ⟨"SELECT 'a\x08'", [.select]⟩) := eq_ok_of_toOption (by decide +kernel)
  refine ⟨hfirst, hsecond, fun h => ?_⟩
  have hsame := Enforcer.parse_printer_of_eq h hsecond
  rw [hfirst] at hsame
  exact absurd hsame (by decide)

end RowPolicy
