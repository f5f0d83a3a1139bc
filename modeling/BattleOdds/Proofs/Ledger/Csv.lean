import BattleOdds.Proofs.Decimal.Characters
import BattleOdds.Proofs.Ledger.Assembly

/-!
# The exported table

An exported ledger is a table: a row with the names of its columns, and for each trial a row with
its number and the texts of fourteen cells. No text of a cell holds a character that ends a cell or
a line or opens a quotation, so the text of a ledger is cut at its line breaks and commas into this
table again. Merging puts the rows of the second ledger, renumbered, behind those of the first.
-/
namespace BattleOdds

/-! ## Texts of cells -/

/-- Whether a character may stand in a cell as it is: no comma, quote or line break may. -/
def isPlain (c : Char) : Bool := c ∉ [',', '"', '\n', '\r']

/-- A text of such characters. -/
def PlainText (s : String) : Prop := ∀ c ∈ s.toList, isPlain c = true

namespace PlainText

theorem const {s : String} (h : s.toList.all isPlain = true) : PlainText s :=
  List.all_eq_true.mp h

theorem of_numeric {s : String} (h : NumericText s) : PlainText s := by
  intro c hc
  have hnumeric := h c hc
  rw [isPlain, decide_eq_true_iff]
  intro hspecial
  fin_cases hspecial <;> exact absurd hnumeric (by decide)

theorem natural (n : ℕ) : PlainText (toString n) := of_numeric (.natural n)

/-- Neither a cut at commas nor one at line breaks cuts the text. -/
theorem notMem {s : String} (h : PlainText s) : ',' ∉ s.toList ∧ '\n' ∉ s.toList :=
  ⟨fun hc => absurd (h ',' hc) (by decide), fun hc => absurd (h '\n' hc) (by decide)⟩

end PlainText

namespace FigureStyle

/-- A figure is never written as nothing. -/
theorem magnitudeText_ne_empty (style : FigureStyle) (x : Binary64) :
    style.magnitudeText x ≠ "" := by
  unfold magnitudeText positional scientific
  dsimp only
  split_ifs
  all_goals simp [String.append_eq_empty_iff]

end FigureStyle

namespace Ledger

theorem plainText_csvFigure (x : Binary64) : PlainText (csvFigure x) := by
  cases hx : x.isFinite with
  | true => exact .of_numeric (FigureStyle.csv.numericText_text hx)
  | false =>
    rw [csvFigure, FigureStyle.text, hx, if_neg Bool.false_ne_true]
    split_ifs <;> exact .const (by decide)

theorem csvFigure_ne_empty (x : Binary64) : csvFigure x ≠ "" := by
  rw [csvFigure, FigureStyle.text]
  by_cases hfinite : x.isFinite = true
  · rw [Binary64.isNaN_of_isFinite hfinite, if_neg Bool.false_ne_true, if_pos hfinite]
    exact fun h => FigureStyle.csv.magnitudeText_ne_empty x (String.append_eq_empty_iff.mp h).2
  · rw [if_neg hfinite]
    split_ifs <;> decide

theorem plainText_csvOptional (x? : Option Binary64) : PlainText (csvOptional x?) := by
  cases x? with
  | none => exact .const (by decide)
  | some x => exact plainText_csvFigure x

/-- Only what is absent leaves its cell blank. -/
theorem csvOptional_eq_empty_iff (x? : Option Binary64) : csvOptional x? = "" ↔ x? = none := by
  cases x? with
  | none => exact iff_of_true rfl rfl
  | some x => exact iff_of_false (csvFigure_ne_empty x) nofun

end Ledger

/-! ## Tables -/

/-- The text of a table. -/
def tableText (rows : List (List String)) : String := String.join (rows.map Ledger.csvLine)

/-- The table that a text holds, if the text ends where a line does. -/
def table? (text : String) : Option (List (List String)) :=
  let lines := text.toList.splitOn '\n'
  if lines.getLast? = some [] then
    some (lines.dropLast.map fun line => (line.splitOn ',').map String.ofList)
  else none

theorem toList_csvLine (row : List String) :
    (Ledger.csvLine row).toList = [','].intercalate (row.map String.toList) ++ ['\n'] := by
  rw [Ledger.csvLine, String.toList_append, String.toList_intercalate]
  rfl

/-- Lines that are ended one by one lie between their ends, before an empty one. -/
theorem flatMap_append_singleton {α : Type} (x : α) (lines : List (List α)) :
    lines.flatMap (· ++ [x]) = [x].intercalate (lines ++ [[]]) := by
  induction lines with
  | nil => rfl
  | cons line lines ih =>
    rw [List.flatMap_cons, ih, List.cons_append]
    cases lines <;> simp [List.intercalate_cons_cons]

/-- A line without line breaks in its cells has none before its end. -/
theorem notMem_intercalate {row : List String} (h : ∀ cell ∈ row, PlainText cell) :
    '\n' ∉ [','].intercalate (row.map String.toList) := by
  induction row with
  | nil => decide
  | cons cell row ih =>
    have hcell := (h cell List.mem_cons_self).notMem.2
    have hrow := ih fun other hother => h other (List.mem_cons_of_mem cell hother)
    cases row with
    | nil => simpa using hcell
    | cons next row =>
      rw [List.map_cons, List.map_cons, List.intercalate_cons_cons]
      simpa [hcell] using hrow

/-- Plain cells are found again in the text of their table. -/
theorem table?_tableText {rows : List (List String)} (hne : ∀ row ∈ rows, row ≠ [])
    (hplain : ∀ row ∈ rows, ∀ cell ∈ row, PlainText cell) :
    table? (tableText rows) = some rows := by
  have htext : (tableText rows).toList
      = ['\n'].intercalate (rows.map (fun row => [','].intercalate (row.map String.toList))
        ++ [[]]) := by
    rw [tableText, String.toList_join, List.flatMap_map, ← flatMap_append_singleton,
      List.flatMap_map]
    simp only [toList_csvLine]
  have hlines : (tableText rows).toList.splitOn '\n'
      = rows.map (fun row => [','].intercalate (row.map String.toList)) ++ [[]] := by
    rw [htext]
    refine List.splitOn_intercalate '\n' (fun line hline => ?_) (by simp)
    obtain hline | rfl := (List.mem_append.mp hline).imp_right List.mem_singleton.mp
    · obtain ⟨row, hrow, rfl⟩ := List.mem_map.mp hline
      exact notMem_intercalate (hplain row hrow)
    · exact List.not_mem_nil
  have hcells : ∀ row ∈ rows,
      (([','].intercalate (row.map String.toList)).splitOn ',').map String.ofList = row := by
    intro row hrow
    rw [List.splitOn_intercalate ',' _ (by simpa using hne row hrow), List.map_map]
    · simp [Function.comp_def]
    · intro cell hcell
      obtain ⟨text, htext, rfl⟩ := List.mem_map.mp hcell
      exact (hplain row hrow text htext).notMem.1
  have hrows := (List.map_congr_left hcells).trans (List.map_id' rows)
  simp only [table?, hlines, List.getLast?_concat, List.dropLast_concat, List.map_map, if_true]
  exact congrArg some hrows

namespace Column

/-- The columns that are exported, from left to right. -/
def exported : List Column :=
  [.tier, .booked .attacker .soldiers, .booked .attacker .tanks, .booked .attacker .aircraft,
    .booked .attacker .ships, .booked .defender .soldiers, .booked .defender .tanks,
    .booked .defender .aircraft, .booked .defender .ships, .infraDestroyed, .moneyLooted,
    .improvementChance, .booked .attacker .totalValue, .booked .defender .totalValue]

/-- The text of a cell. -/
def text : (c : Column) → c.Cell → String
  | .tier, t => toString (Tier.rounds t)
  | .booked _ _, x => Ledger.csvFigure x
  | .infraDestroyed, x => Ledger.csvFigure x
  | .moneyLooted, x? => Ledger.csvOptional x?
  | .moneyDestroyed, x? => Ledger.csvOptional x?
  | .improvementChance, x? => Ledger.csvOptional x?

theorem plainText_text (c : Column) (cell : c.Cell) : PlainText (c.text cell) := by
  cases c with
  | tier => exact .natural _
  | booked side figure => exact Ledger.plainText_csvFigure cell
  | infraDestroyed => exact Ledger.plainText_csvFigure cell
  | moneyLooted => exact Ledger.plainText_csvOptional cell
  | moneyDestroyed => exact Ledger.plainText_csvOptional cell
  | improvementChance => exact Ledger.plainText_csvOptional cell

end Column

namespace Ledger

/-- The text of the cell of a column in a row. -/
def cellText (l : Ledger) (i : ℕ) (c : Column) : String := ((l.column c)[i]?).elim "" c.text

/-- The texts of a row, from left to right, without the number of the trial. -/
def rowTexts (l : Ledger) (i : ℕ) : List String := Column.exported.map (l.cellText i)

/-- The rows of the trials, which are numbered from `first` on. -/
def dataRows (l : Ledger) (first : ℕ) : List (List String) :=
  (List.range l.size).map fun i => toString (first + i) :: l.rowTexts i

/-- The exported table. -/
def table (l : Ledger) : List (List String) := csvColumns :: l.dataRows 0

@[simp] theorem length_dataRows (l : Ledger) (first : ℕ) : (l.dataRows first).length = l.size := by
  simp [dataRows]

theorem plainText_cellText (l : Ledger) (i : ℕ) (c : Column) : PlainText (l.cellText i c) := by
  rw [cellText]
  cases (l.column c)[i]? with
  | none => exact (.const (by decide) : PlainText "")
  | some cell => exact c.plainText_text cell

/-- Every row has fifteen cells, all of them plain. -/
theorem plain_table {l : Ledger} {row : List String} (h : row ∈ l.table) :
    row.length = 15 ∧ ∀ cell ∈ row, PlainText cell := by
  obtain rfl | h := List.mem_cons.mp h
  · have hnames : csvColumns.all (fun name => name.toList.all isPlain) = true := by decide
    exact ⟨rfl, fun name hname => .const (List.all_eq_true.mp hnames name hname)⟩
  · obtain ⟨i, -, rfl⟩ := List.mem_map.mp h
    refine ⟨rfl, List.forall_mem_cons.mpr ⟨.natural _, ?_⟩⟩
    exact List.forall_mem_map.mpr fun c _ => l.plainText_cellText i c

theorem table?_table (l : Ledger) : table? (tableText l.table) = some l.table :=
  table?_tableText (fun row hrow hnil => by simpa [hnil] using (plain_table hrow).1)
    fun row hrow => (plain_table hrow).2

/-- The cells of a row are its number and the texts of the exported columns. -/
theorem csvCells?_eq (l : Ledger) (i : ℕ) :
    l.csvCells? i
      = (toString i :: ·) <$> Column.exported.mapM fun c => c.text <$> (l.column c)[i]? := by
  simp only [csvCells?, Column.exported, List.mapM_cons, List.mapM_nil, bind_assoc, pure_bind,
    map_eq_pure_bind]
  rfl

namespace Aligned

variable {l m : Ledger}

theorem exists_cell (h : l.Aligned) {i : ℕ} (hi : i < l.size) (c : Column) :
    ∃ cell, (l.column c)[i]? = some cell ∧ l.cellText i c = c.text cell := by
  have hlt : i < (l.column c).size := (h.size_column c).symm ▸ hi
  have hcell := Array.getElem?_eq_getElem hlt
  exact ⟨_, hcell, by rw [cellText, hcell]; rfl⟩

theorem csvCells?_eq_some (h : l.Aligned) {i : ℕ} (hi : i < l.size) :
    l.csvCells? i = some (toString i :: l.rowTexts i) := by
  have htext (c : Column) : c.text <$> (l.column c)[i]? = some (l.cellText i c) := by
    obtain ⟨cell, hcell, htext⟩ := h.exists_cell hi c
    rw [hcell, htext]
    rfl
  simp only [csvCells?_eq, htext]
  rfl

theorem csvRows?_eq (h : l.Aligned) : l.csvRows? = some (l.dataRows 0) := by
  have hmap (is : List ℕ) (his : ∀ i ∈ is, i < l.size) :
      is.mapM l.csvCells?
        = some (is.map fun i => toString i :: l.rowTexts i) := by
    induction is with
    | nil => rfl
    | cons i is ih =>
      rw [List.mapM_cons, h.csvCells?_eq_some (his i List.mem_cons_self),
        ih fun j hj => his j (List.mem_cons_of_mem i hj)]
      rfl
  simp only [dataRows, Nat.zero_add]
  exact hmap _ fun i => List.mem_range.mp

/-- The text of a ledger is that of its table, unless it has no trials. -/
theorem csv_eq (h : l.Aligned) : l.csv = if l.size = 0 then "" else tableText l.table := by
  have hrows := l.length_dataRows 0
  rw [csv, h.csvRows?_eq, table]
  cases hdata : l.dataRows 0 with
  | nil =>
    rw [hdata, List.length_nil] at hrows
    rw [if_pos hrows.symm]
  | cons row rows =>
    rw [hdata, List.length_cons] at hrows
    rw [if_neg (by omega)]
    rfl

/-- Cutting the text of a ledger gives its table back. -/
theorem table?_csv (h : l.Aligned) : table? l.csv = some (if l.size = 0 then [] else l.table) := by
  rw [h.csv_eq]
  split_ifs
  · rfl
  · exact l.table?_table

theorem rowTexts_append_left (hl : l.Aligned) (m : Ledger) {i : ℕ} (hi : i < l.size) :
    (l ++ m).rowTexts i = l.rowTexts i := by
  refine List.map_congr_left fun c _ => ?_
  have hlt : i < (l.column c).size := (hl.size_column c).symm ▸ hi
  rw [cellText, cellText, column_append, Array.getElem?_append_left hlt]

theorem rowTexts_append_right (hl : l.Aligned) (m : Ledger) (i : ℕ) :
    (l ++ m).rowTexts (l.size + i) = m.rowTexts i := by
  refine List.map_congr_left fun c _ => ?_
  have hle : (l.column c).size ≤ l.size + i := (hl.size_column c).symm ▸ Nat.le_add_right _ _
  rw [cellText, cellText, column_append, Array.getElem?_append_right hle, hl.size_column,
    Nat.add_sub_cancel_left]

theorem dataRows_append (hl : l.Aligned) (m : Ledger) (first : ℕ) :
    (l ++ m).dataRows first = l.dataRows first ++ m.dataRows (first + l.size) := by
  rw [dataRows, size_append, List.range_add, List.map_append, List.map_map]
  congr 1
  · refine List.map_congr_left fun i hi => ?_
    rw [hl.rowTexts_append_left m (List.mem_range.mp hi)]
  · refine List.map_congr_left fun i _ => ?_
    rw [Function.comp_apply, hl.rowTexts_append_right, Nat.add_assoc]

/-- The rows of an appended ledger are exported behind the others, under higher numbers. -/
theorem csv_append (hl : l.Aligned) (hm : m.Aligned) (hlpos : 0 < l.size) :
    (l ++ m).csv = l.csv ++ tableText (m.dataRows l.size) := by
  have hsize : (l ++ m).size ≠ 0 := by
    rw [size_append]
    omega
  rw [(hl.append hm).csv_eq, hl.csv_eq, if_neg hsize, if_neg hlpos.ne', table, table,
    hl.dataRows_append, Nat.zero_add, ← List.cons_append, tableText, List.map_append,
    String.join_append]
  rfl

/-- One text belongs to one table. -/
theorem csv_eq_csv_iff (hl : l.Aligned) (hm : m.Aligned) :
    l.csv = m.csv ↔ l.size = m.size
      ∧ ∀ i < l.size, ∀ c ∈ Column.exported, l.cellText i c = m.cellText i c := by
  constructor
  · intro h
    have htables : some (if l.size = 0 then [] else l.table)
        = some (if m.size = 0 then [] else m.table) := by
      rw [← hl.table?_csv, ← hm.table?_csv, h]
    have hsize : l.size = m.size := by
      have hlength := congrArg List.length (Option.some.inj htables)
      simp only [apply_ite List.length, table, List.length_nil, List.length_cons,
        length_dataRows] at hlength
      split_ifs at hlength <;> omega
    refine ⟨hsize, fun i hi => ?_⟩
    have hpos : l.size ≠ 0 := Nat.ne_zero_of_lt hi
    rw [if_neg hpos, if_neg (hsize ▸ hpos), table, table, dataRows, dataRows, ← hsize] at htables
    have hrows := List.map_inj_left.mp (List.cons.inj (Option.some.inj htables)).2 i
      (List.mem_range.mpr hi)
    exact List.map_inj_left.mp (List.cons.inj hrows).2
  · rintro ⟨hsize, hcells⟩
    have hrows : l.dataRows 0 = m.dataRows 0 := by
      rw [dataRows, dataRows, ← hsize]
      refine List.map_congr_left fun i hi => ?_
      rw [rowTexts, rowTexts, List.map_congr_left (hcells i (List.mem_range.mp hi))]
    rw [hl.csv_eq, hm.csv_eq, table, table, hrows, hsize]

end Aligned

/-- The export of a ledger is its table, which is found again in the text. A row consists of its
number and of what stands in the exported columns, and is blank only where a figure is absent. -/
structure Tabulated (l : Ledger) : Prop where
  csv_eq : l.csv = if l.size = 0 then "" else tableText l.table
  table?_csv : table? l.csv = some (if l.size = 0 then [] else l.table)
  length_table : l.table.length = l.size + 1
  head?_table : l.table.head? = some csvColumns
  row (i : ℕ) (hi : i < l.size) : l.table[i + 1]? = some (toString i :: l.rowTexts i)
  cell (i : ℕ) (hi : i < l.size) (c : Column) :
    ∃ cell, (l.column c)[i]? = some cell ∧ l.cellText i c = c.text cell
  plain (row : List String) (h : row ∈ l.table) :
    row.length = 15 ∧ ∀ cell ∈ row, PlainText cell
  blank_moneyLooted (i : ℕ) (hi : i < l.size) :
    l.cellText i .moneyLooted = "" ↔ l.moneyLooted[i]? = some none
  blank_improvementChance (i : ℕ) (hi : i < l.size) :
    l.cellText i .improvementChance = "" ↔ l.improvementChance[i]? = some none

theorem Aligned.tabulated {l : Ledger} (h : l.Aligned) : l.Tabulated where
  csv_eq := h.csv_eq
  table?_csv := h.table?_csv
  length_table := by rw [table, List.length_cons, length_dataRows]
  head?_table := rfl
  row i hi := by
    rw [table, List.getElem?_cons_succ, dataRows, List.getElem?_map, List.getElem?_range hi,
      Option.map_some, Nat.zero_add]
  cell i hi c := h.exists_cell hi c
  plain row hrow := plain_table hrow
  blank_moneyLooted i hi := by
    obtain ⟨x?, hcell, htext⟩ : ∃ x? : Option Binary64, l.moneyLooted[i]? = some x?
        ∧ l.cellText i .moneyLooted = csvOptional x? := h.exists_cell hi .moneyLooted
    rw [htext, hcell, Option.some_inj]
    exact csvOptional_eq_empty_iff x?
  blank_improvementChance i hi := by
    obtain ⟨x?, hcell, htext⟩ : ∃ x? : Option Binary64, l.improvementChance[i]? = some x?
        ∧ l.cellText i .improvementChance = csvOptional x? := h.exists_cell hi .improvementChance
    rw [htext, hcell, Option.some_inj]
    exact csvOptional_eq_empty_iff x?

end Ledger

/-- The export keeps what it shows. However a ledger was put together, its text is that of a table
and is cut into that table again. Two ledgers have one text only if they have as many trials and the
same texts in every row, and the text of a merged ledger continues that of the first with the
rows of the second, whose numbers go on from there. -/
theorem csv_shows_table :
    (∀ a : Assembly, a.ledger.Tabulated)
    ∧ (∀ a b : Assembly, a.ledger.csv = b.ledger.csv ↔ a.ledger.size = b.ledger.size
        ∧ ∀ i < a.ledger.size, ∀ c ∈ Column.exported,
          a.ledger.cellText i c = b.ledger.cellText i c)
    ∧ ∀ a b : Assembly, a.ledger.size ≠ 0 → b.ledger.size ≠ 0 →
        b.ledger.csv = Ledger.csvLine Ledger.csvColumns ++ tableText (b.ledger.dataRows 0)
        ∧ (a.ledger ++ b.ledger).csv
          = a.ledger.csv ++ tableText (b.ledger.dataRows a.ledger.size) := by
  refine ⟨fun a => a.aligned_ledger.tabulated,
    fun a b => a.aligned_ledger.csv_eq_csv_iff b.aligned_ledger, fun a b ha hb => ⟨?_, ?_⟩⟩
  · rw [b.aligned_ledger.csv_eq, if_neg hb, Ledger.table, tableText, List.map_cons,
      String.join_cons]
    rfl
  · exact a.aligned_ledger.csv_append b.aligned_ledger (Nat.pos_of_ne_zero ha)

/-- A trial with loot, and one that models none. -/
theorem csv_shows_table_of_two :
    let costs : SideCosts := { usage := {}, usageValue := 0.0 }
    let entry (loot : Option Binary64) : Entry :=
      { result := { roundsWon := 1, moneyLooted := loot }
        attackerLossesValue := 0.0, defenderLossesValue := 0.0
        attackerCosts := costs, defenderCosts := costs }
    let a : Assembly := .record (.fresh 1) (entry (some 42.0))
    let b : Assembly := .record (.fresh 1) (entry none)
    a.ledger.size ≠ 0 ∧ b.ledger.size ≠ 0
    ∧ (a.ledger ++ b.ledger).csv = a.ledger.csv ++ tableText (b.ledger.dataRows 1)
    ∧ b.ledger.cellText 0 .moneyLooted = "" := by
  intro costs entry a b
  have ha : a.ledger.size ≠ 0 := by decide
  have hb : b.ledger.size ≠ 0 := by decide
  obtain ⟨htable, -, hmerge⟩ := csv_shows_table
  exact ⟨ha, hb, (hmerge a b ha hb).2, ((htable b).blank_moneyLooted 0 (by decide)).mpr rfl⟩

end BattleOdds
