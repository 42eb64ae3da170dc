import Mathlib.Data.List.Basic
import RowPolicy.CommandLine

/-!
# The rows of a printed table

A table of statements shows each of them in a row that begins with its number, whatever lines its
text has. `tableKinds` reads the kinds in the rows of what is printed, and finds those of the
statements: `tableKinds_boxed`.
-/

namespace RowPolicy.CommandLine

open Sql

/-! ## Lines -/

theorem lines_ne_nil (cs : List Char) : lines cs ≠ [] := by
  cases cs with
  | nil => simp [lines]
  | cons c cs =>
    unfold lines
    split <;> (try split) <;> simp_all

theorem exists_lines_cons {c : Char} (h : c ≠ '\n') (cs : List Char) :
    ∃ l ls, lines cs = l :: ls ∧ lines (c :: cs) = (c :: l) :: ls := by
  obtain ⟨l, ls, hlines⟩ := List.exists_cons_of_ne_nil (lines_ne_nil cs)
  exact ⟨l, ls, hlines, by rw [lines.eq_3 _ _ h, hlines]⟩

theorem lines_append_newLine {l : List Char} (h : '\n' ∉ l) (rest : List Char) :
    lines (l ++ '\n' :: rest) = l :: lines rest := by
  induction l with
  | nil => rfl
  | cons c l ih =>
    rw [List.mem_cons, not_or] at h
    obtain ⟨l', ls, hrest, hlines⟩ := exists_lines_cons (Ne.symm h.1) (l ++ '\n' :: rest)
    rw [ih h.2] at hrest
    obtain ⟨rfl, rfl⟩ := List.cons.inj hrest
    exact hlines

theorem lines_eq_singleton {l : List Char} (h : '\n' ∉ l) : lines l = [l] := by
  induction l with
  | nil => rfl
  | cons c l ih =>
    rw [List.mem_cons, not_or] at h
    obtain ⟨l', ls, htail, hlines⟩ := exists_lines_cons (Ne.symm h.1) l
    rw [ih h.2] at htail
    obtain ⟨rfl, rfl⟩ := List.cons.inj htail
    exact hlines

theorem notMem_of_mem_lines {l cs : List Char} (h : l ∈ lines cs) : '\n' ∉ l := by
  induction cs generalizing l with
  | nil =>
    obtain rfl := List.mem_singleton.mp h
    exact List.not_mem_nil
  | cons c cs ih =>
    by_cases hc : c = '\n'
    · subst hc
      rcases List.mem_cons.mp h with rfl | h
      · exact List.not_mem_nil
      · exact ih h
    · obtain ⟨l', ls, hcs, hlines⟩ := exists_lines_cons hc cs
      rw [hcs] at ih
      rw [hlines] at h
      rcases List.mem_cons.mp h with rfl | h
      · rw [List.mem_cons, not_or]
        exact ⟨Ne.symm hc, ih List.mem_cons_self⟩
      · exact ih (List.mem_cons_of_mem _ h)

/-- A text without an end of line is one line. -/
theorem cellLines_eq_singleton {s : String} (h : '\n' ∉ s.toList) : cellLines s = [s] := by
  simp [cellLines, lines_eq_singleton h]

theorem notMem_of_mem_cellLines {s l : String} (h : l ∈ cellLines s) : '\n' ∉ l.toList := by
  obtain ⟨l, hl, rfl⟩ := List.mem_map.mp h
  rw [String.toList_ofList]
  exact notMem_of_mem_lines hl

/-! ## Rows by their first lines -/

/-- The kind in a line that begins a row: the word behind the number. -/
def rowKind? (line : List Char) : Option String :=
  match line with
  | '│' :: ' ' :: c :: cs =>
    if c.isDigit then
      some (String.ofList
        (((cs.dropWhile Char.isDigit).dropWhile (· == ' ')).takeWhile Char.isAlpha))
    else none
  | _ => none

/-- The kinds in the rows of a text. -/
def kindsIn (cs : List Char) : List String :=
  (lines cs).filterMap rowKind?

/-- The kinds in the rows of a printed table, in order. -/
def tableKinds (out : String) : List String :=
  kindsIn out.toList

theorem kindsIn_append_newLine {l : List Char} (h : '\n' ∉ l) (rest : List Char) :
    kindsIn (l ++ '\n' :: rest) = (rowKind? l).toList ++ kindsIn rest := by
  rw [kindsIn, lines_append_newLine h, List.filterMap_cons, kindsIn]
  cases rowKind? l <;> rfl

/-! ## Lines of a table -/

/-- The characters of a line of a table, without its end. -/
def lineChars (widths : List Nat) (cells : List String) : List Char :=
  '│' :: (" ".intercalate ((widths.zip cells).map paddedCell)).toList ++ ['│']

theorem tableLine_toList (widths : List Nat) (cells : List String) :
    (tableLine widths cells).toList = lineChars widths cells ++ ['\n'] := by
  simp [tableLine, lineChars]

theorem paddedCell_toList (w : Nat) (c : String) :
    (paddedCell (w, c)).toList =
      ' ' :: (c.toList ++ List.replicate (w - Text.width c + 1) ' ') := by
  simp [paddedCell, Text.padTo, List.replicate_succ']

theorem notMem_intercalate {ts : List String} (h : ∀ t ∈ ts, '\n' ∉ t.toList) :
    '\n' ∉ (" ".intercalate ts).toList := by
  induction ts with
  | nil => simp
  | cons t ts ih =>
    obtain ⟨ht, hts⟩ := List.forall_mem_cons.mp h
    cases ts with
    | nil => simpa using ht
    | cons u ts =>
      rw [String.intercalate_cons_cons]
      simpa [ht] using ih hts

theorem notMem_lineChars {widths : List Nat} {cells : List String}
    (h : ∀ c ∈ cells, '\n' ∉ c.toList) : '\n' ∉ lineChars widths cells := by
  have hcells : '\n' ∉ (" ".intercalate ((widths.zip cells).map paddedCell)).toList := by
    refine notMem_intercalate fun t ht => ?_
    obtain ⟨⟨w, c⟩, hc, rfl⟩ := List.mem_map.mp ht
    rw [paddedCell_toList]
    simp [h c (List.of_mem_zip hc).2]
  rw [lineChars, List.cons_append, List.mem_cons, List.mem_append]
  rintro (h | h | h)
  · exact absurd h (by decide)
  · exact hcells h
  · exact absurd h (by decide)

theorem exists_intercalate_cons (t : String) (ts : List String) :
    ∃ tail, (" ".intercalate (t :: ts)).toList ++ ['│'] = t.toList ++ tail := by
  cases ts with
  | nil => exact ⟨['│'], by simp⟩
  | cons u ts =>
    rw [String.intercalate_cons_cons]
    exact ⟨' ' :: ((" ".intercalate (u :: ts)).toList ++ ['│']), by simp⟩

/-- A line that begins with a number and a word. -/
theorem exists_lineChars_cons_cons (w v : Nat) (widths : List Nat) (n kind : String)
    (cells : List String) : ∃ a tail, lineChars (w :: v :: widths) (n :: kind :: cells) =
      '│' :: ' ' :: (n.toList ++ (List.replicate (a + 1) ' ' ++ (kind.toList ++ ' ' :: tail))) := by
  obtain ⟨tail, htail⟩ := exists_intercalate_cons (paddedCell (v, kind))
    ((widths.zip cells).map paddedCell)
  have hbehind : List.replicate (w - Text.width n + 2 + 1) ' ' =
      List.replicate (w - Text.width n + 1) ' ' ++ [' ', ' '] :=
    List.replicate_add (w - Text.width n + 1) 2 ' '
  have hlast : List.replicate (v - Text.width kind + 1) ' ' =
      ' ' :: List.replicate (v - Text.width kind) ' ' := rfl
  refine ⟨w - Text.width n + 2, List.replicate (v - Text.width kind) ' ' ++ tail, ?_⟩
  rw [lineChars, List.zip_cons_cons, List.map_cons, List.zip_cons_cons, List.map_cons,
    String.intercalate_cons_cons, String.toList_append, String.toList_append, List.cons_append,
    List.append_assoc, List.append_assoc, htail, paddedCell_toList, paddedCell_toList, hbehind,
    hlast]
  simp

theorem rowKind?_of_number {w v : Nat} {widths : List Nat} {n kind : String} {cells : List String}
    (hn : n.toList ≠ []) (hdigits : ∀ c ∈ n.toList, c.isDigit = true)
    (hkind : kind.toList ≠ []) (hletters : ∀ c ∈ kind.toList, c.isAlpha = true) :
    rowKind? (lineChars (w :: v :: widths) (n :: kind :: cells)) = some kind := by
  obtain ⟨a, tail, hline⟩ := exists_lineChars_cons_cons w v widths n kind cells
  obtain ⟨d, ds, hds⟩ := List.exists_cons_of_ne_nil hn
  obtain ⟨k, ks, hks⟩ := List.exists_cons_of_ne_nil hkind
  rw [hds] at hdigits
  have hblank : k ≠ ' ' := by
    rintro rfl
    exact absurd (hletters ' ' (by simp [hks])) (by decide)
  have hnumber : (ds ++ (List.replicate (a + 1) ' ' ++ (kind.toList ++ ' ' :: tail))).dropWhile
      Char.isDigit = List.replicate (a + 1) ' ' ++ (kind.toList ++ ' ' :: tail) := by
    rw [List.dropWhile_append_of_pos fun c hc => hdigits c (List.mem_cons_of_mem d hc)]
    rfl
  have hblanks : (List.replicate (a + 1) ' ' ++ (kind.toList ++ ' ' :: tail)).dropWhile
      (· == ' ') = kind.toList ++ ' ' :: tail := by
    rw [List.dropWhile_append_of_pos fun c hc => by simpa using List.eq_of_mem_replicate hc, hks,
      List.cons_append, List.dropWhile_cons_of_neg (by simpa using hblank)]
  have hword : (kind.toList ++ ' ' :: tail).takeWhile Char.isAlpha = kind.toList := by
    rw [List.takeWhile_append_of_pos hletters, List.takeWhile_cons_of_neg (by decide),
      List.append_nil]
  rw [hline, hds]
  simp only [rowKind?, List.cons_append]
  rw [if_pos (hdigits d List.mem_cons_self), hnumber, hblanks, hword, String.ofList_toList]

theorem rowKind?_eq_none {w : Nat} {widths : List Nat} {cell : String} {cells : List String}
    (h : ∀ c ∈ cell.toList.head?, c.isDigit = false) :
    rowKind? (lineChars (w :: widths) (cell :: cells)) = none := by
  obtain ⟨tail, htail⟩ := exists_intercalate_cons (paddedCell (w, cell))
    ((widths.zip cells).map paddedCell)
  rw [lineChars, List.zip_cons_cons, List.map_cons, List.cons_append, htail, paddedCell_toList]
  cases hcell : cell.toList with
  | nil => simp [rowKind?, List.replicate_succ]
  | cons c cs =>
    have hc : c.isDigit = false := h c (by simp [hcell])
    simp [rowKind?, hc]

/-! ## Rows -/

/-- The kinds in lines that are printed one behind the other. -/
theorem kindsIn_tableLines {α : Type} (widths : List Nat) (cells : α → List String) (xs : List α)
    (h : ∀ x ∈ xs, ∀ c ∈ cells x, '\n' ∉ c.toList) (rest : List Char) :
    kindsIn ((String.join (xs.map fun x => tableLine widths (cells x))).toList ++ rest) =
      xs.filterMap (fun x => rowKind? (lineChars widths (cells x))) ++ kindsIn rest := by
  induction xs with
  | nil => simp
  | cons x xs ih =>
    obtain ⟨hx, hxs⟩ := List.forall_mem_cons.mp h
    have hline : (String.join ((x :: xs).map fun x => tableLine widths (cells x))).toList ++ rest =
        lineChars widths (cells x) ++ '\n' ::
          ((String.join (xs.map fun x => tableLine widths (cells x))).toList ++ rest) := by
      simp [tableLine_toList]
    rw [hline, kindsIn_append_newLine (notMem_lineChars hx), ih hxs, List.filterMap_cons]
    cases rowKind? (lineChars widths (cells x)) <;> rfl

/-- The cells of the line with number `i` of a row. -/
def cellsAt (row : List String) (i : Nat) : List String :=
  row.map fun s => (cellLines s).getD i ""

theorem notMem_of_mem_cellsAt {row : List String} {i : Nat} {c : String} (h : c ∈ cellsAt row i) :
    '\n' ∉ c.toList := by
  obtain ⟨s, -, rfl⟩ := List.mem_map.mp h
  rw [List.getD_eq_getElem?_getD]
  cases hline : (cellLines s)[i]? with
  | none => simp
  | some l => exact notMem_of_mem_cellLines (List.mem_of_getElem? hline)

theorem le_foldl_max (ns : List Nat) (n : Nat) : n ≤ ns.foldl max n := by
  induction ns generalizing n with
  | nil => exact Nat.le_refl n
  | cons k ns ih => exact Nat.le_trans (Nat.le_max_left n k) (ih (max n k))

/-- A row has a first line, and further ones. -/
theorem exists_tableRow_eq (widths : List Nat) (cell : String) (cells : List String) :
    ∃ more, tableRow widths (cell :: cells) =
      String.join ((List.range (more + 1)).map fun i =>
        tableLine widths (cellsAt (cell :: cells) i)) := by
  have hpos : 0 < ((((cell :: cells).map cellLines).map List.length).foldl max 0) := by
    have hcell : 0 < (cellLines cell).length :=
      List.length_pos_of_ne_nil (by simpa [cellLines] using lines_ne_nil cell.toList)
    rw [List.map_cons, List.map_cons, List.foldl_cons]
    exact Nat.lt_of_lt_of_le (by omega) (le_foldl_max _ _)
  obtain ⟨more, hmore⟩ := Nat.exists_eq_succ_of_ne_zero (Nat.ne_of_gt hpos)
  refine ⟨more, ?_⟩
  rw [tableRow, hmore]
  simp only [cellsAt, List.map_map]
  rfl

/-- A row of a table is read as the kind in it. -/
theorem kindsIn_tableRow {w v : Nat} {widths : List Nat} {n kind : String} {cells : List String}
    (hn : n.toList ≠ []) (hdigits : ∀ c ∈ n.toList, c.isDigit = true)
    (hkind : kind.toList ≠ []) (hletters : ∀ c ∈ kind.toList, c.isAlpha = true)
    (rest : List Char) :
    kindsIn ((tableRow (w :: v :: widths) (n :: kind :: cells)).toList ++ rest) =
      kind :: kindsIn rest := by
  have hnumber : cellLines n = [n] :=
    cellLines_eq_singleton fun h => absurd (hdigits _ h) (by decide)
  have hword : cellLines kind = [kind] :=
    cellLines_eq_singleton fun h => absurd (hletters _ h) (by decide)
  obtain ⟨more, hrow⟩ := exists_tableRow_eq (w :: v :: widths) n (kind :: cells)
  have hfirst : cellsAt (n :: kind :: cells) 0 = n :: kind :: cellsAt cells 0 := by
    simp [cellsAt, hnumber, hword]
  -- the lines behind the first have nothing in the place of the number
  have hfurther : ∀ i, cellsAt (n :: kind :: cells) (i + 1) =
      "" :: "" :: cellsAt cells (i + 1) := by
    simp [cellsAt, hnumber, hword]
  rw [hrow, kindsIn_tableLines _ _ _ fun i _ c hc => notMem_of_mem_cellsAt hc,
    List.range_succ_eq_map, List.filterMap_cons, hfirst,
    rowKind?_of_number hn hdigits hkind hletters, List.filterMap_map]
  have hnone : (List.range more).filterMap ((fun i =>
      rowKind? (lineChars (w :: v :: widths) (cellsAt (n :: kind :: cells) i))) ∘ Nat.succ) =
        [] := by
    refine List.filterMap_eq_nil_iff.mpr fun i _ => ?_
    rw [Function.comp_apply, Nat.succ_eq_add_one, hfurther, rowKind?_eq_none (by simp)]
  rw [hnone]
  rfl

/-- The head of a table is no row. -/
theorem kindsIn_head (w : Nat) (widths : List Nat) (cells : List String) (rest : List Char) :
    kindsIn ((tableRow (w :: widths) ("#" :: cells)).toList ++ rest) = kindsIn rest := by
  obtain ⟨more, hrow⟩ := exists_tableRow_eq (w :: widths) "#" cells
  have hcells : ∀ i, ∃ cell, cellsAt ("#" :: cells) i = cell :: cellsAt cells i ∧
      ∀ c ∈ cell.toList.head?, c.isDigit = false := by
    have hlines : cellLines "#" = ["#"] := cellLines_eq_singleton (by decide)
    intro i
    refine ⟨(cellLines "#").getD i "", rfl, ?_⟩
    rw [hlines]
    cases i <;> simp
  rw [hrow, kindsIn_tableLines _ _ _ fun i _ c hc => notMem_of_mem_cellsAt hc]
  have hnone : (List.range (more + 1)).filterMap (fun i =>
      rowKind? (lineChars (w :: widths) (cellsAt ("#" :: cells) i))) = [] := by
    refine List.filterMap_eq_nil_iff.mpr fun i _ => ?_
    obtain ⟨cell, hcell, hdigit⟩ := hcells i
    rw [hcell, rowKind?_eq_none hdigit]
  rw [hnone, List.nil_append]

/-! ## Tables -/

theorem length_le_columnWidths {rows : List (List String)} {row : List String} (h : row ∈ rows) :
    row.length ≤ (columnWidths rows).length := by
  unfold columnWidths
  generalize hstep : (fun (ws : List Nat) (row : List String) => _) = step
  have hlength : ∀ ws row, (step ws row).length = max ws.length row.length := by
    intro ws row
    simp [← hstep]
  generalize ([] : List Nat) = ws
  have hstart : ∀ (rows : List (List String)) (ws : List Nat),
      ws.length ≤ (rows.foldl step ws).length := by
    intro rows
    induction rows with
    | nil => exact fun ws => Nat.le_refl _
    | cons row rows ih =>
      intro ws
      have hnext := ih (step ws row)
      rw [hlength] at hnext
      exact Nat.le_trans (Nat.le_max_left _ _) hnext
  induction rows generalizing ws with
  | nil => exact absurd h List.not_mem_nil
  | cons row' rows ih =>
    rcases List.mem_cons.mp h with rfl | h
    · have hnext := hstart rows (step ws row)
      rw [hlength] at hnext
      exact Nat.le_trans (Nat.le_max_right _ _) hnext
    · exact ih h (step ws row')

theorem kindsIn_tableRule (widths : List Nat) {left fill right : Char} (hbar : left ≠ '│')
    (hleft : left ≠ '\n') (hfill : fill ≠ '\n') (hright : right ≠ '\n') (rest : List Char) :
    kindsIn ((tableRule widths left fill right).toList ++ '\n' :: rest) = kindsIn rest := by
  have hline : '\n' ∉ (tableRule widths left fill right).toList := by
    simp [tableRule, hleft.symm, hfill.symm, hright.symm]
  have hnone : rowKind? (tableRule widths left fill right).toList = none := by
    simp only [tableRule, String.toList_ofList, List.cons_append]
    unfold rowKind?
    split
    · rename_i heq
      exact absurd (List.cons.inj heq).1 hbar
    · rfl
  rw [kindsIn_append_newLine hline, hnone]
  rfl

theorem isDigit_of_mem_toString {n : Nat} {c : Char} (h : c ∈ (toString n).toList) :
    c.isDigit = true := by
  rw [Nat.toString_eq_repr, Nat.toList_repr] at h
  exact Nat.isDigit_of_mem_toDigits (by decide) (by decide) h

/-- The rows of a table are read as the kinds in them. -/
theorem kindsIn_rows (w v : Nat) (widths : List Nat) (xs : List (Statement × Nat))
    (rest : List Char) :
    kindsIn ((String.join ((xs.map fun (s, n) => [toString (n + 1), s.kind.name, s.render]).map
        (tableRow (w :: v :: widths)))).toList ++ rest) =
      xs.map (·.1.kind.name) ++ kindsIn rest := by
  induction xs with
  | nil => simp
  | cons x xs ih =>
    obtain ⟨s, n⟩ := x
    have hn : (toString (n + 1)).toList ≠ [] := by
      rw [Nat.toString_eq_repr, Nat.toList_repr]
      exact Nat.toDigits_ne_nil
    have hkind : s.kind.name.toList ≠ [] := by
      cases s.kind <;> simp [StatementKind.name]
    have hletters : s.kind.name.toList.all Char.isAlpha = true := by
      cases s.kind <;> rfl
    rw [List.map_cons, List.map_cons, String.join_cons, String.toList_append, List.append_assoc,
      kindsIn_tableRow hn (fun c hc => isDigit_of_mem_toString hc) hkind
        (List.all_eq_true.mp hletters), ih]
    rfl

/-- **A table of statements has a row for each of them, in order, with its kind.** -/
theorem tableKinds_boxed (ss : List Statement) (count : Nat) :
    tableKinds (boxed ["#", "kind", "sql"] (Report.rows ss) ++ "(" ++ toString count ++
      " statements)\n") = ss.map (·.kind.name) := by
  let head := ["#", "kind", "sql"]
  have hlength : head.length ≤ (columnWidths (head :: Report.rows ss)).length :=
    length_le_columnWidths List.mem_cons_self
  obtain ⟨w, v, widths, hwidths⟩ : ∃ w v widths,
      columnWidths (head :: Report.rows ss) = w :: v :: widths := by
    rcases hws : columnWidths (head :: Report.rows ss) with _ | ⟨w, _ | ⟨v, widths⟩⟩
    · simp [hws, head] at hlength
    · simp [hws, head] at hlength
    · exact ⟨w, v, widths, rfl⟩
  have hfooter : kindsIn ("(" ++ toString count ++ " statements)\n").toList = [] := by
    have hline : '\n' ∉ ("(" ++ toString count ++ " statements)").toList := by
      have hcount : '\n' ∉ (toString count).toList :=
        fun h => absurd (isDigit_of_mem_toString h) (by decide)
      simp only [String.toList_append, List.mem_append, not_or]
      exact ⟨⟨by decide, hcount⟩, by decide⟩
    have hend : ("(" ++ toString count ++ " statements)\n").toList =
        ("(" ++ toString count ++ " statements)").toList ++ '\n' :: [] := by
      simp
    rw [hend, kindsIn_append_newLine hline]
    simp [rowKind?, kindsIn, lines]
  have htext : (boxed head (Report.rows ss) ++ "(" ++ toString count ++ " statements)\n").toList =
      (tableRule (w :: v :: widths) '┌' '─' '┐').toList ++ '\n' ::
      ((tableRow (w :: v :: widths) head).toList ++
      ((tableRule (w :: v :: widths) '╞' '═' '╡').toList ++ '\n' ::
      ((String.join ((Report.rows ss).map (tableRow (w :: v :: widths)))).toList ++
      ((tableRule (w :: v :: widths) '└' '─' '┘').toList ++ '\n' ::
        ("(" ++ toString count ++ " statements)\n").toList)))) := by
    simp [boxed, hwidths]
  rw [tableKinds, htext,
    kindsIn_tableRule _ (by decide) (by decide) (by decide) (by decide), kindsIn_head,
    kindsIn_tableRule _ (by decide) (by decide) (by decide) (by decide), Report.rows, kindsIn_rows,
    kindsIn_tableRule _ (by decide) (by decide) (by decide) (by decide), hfooter, List.append_nil]
  have hkinds : ss.zipIdx.map (fun x => x.1.kind.name) =
      (ss.zipIdx.map Prod.fst).map (fun s => s.kind.name) := by
    rw [List.map_map]
    rfl
  rw [hkinds, List.zipIdx_map_fst]

end RowPolicy.CommandLine
