import BattleOdds.Ledger.Csv
import BattleOdds.Proofs.Ledger.Columns
import Mathlib.Data.List.Induction

/-!
# Ledgers from records and merges

However a ledger is put together from empty ones by recording and appending, it is the ledger of its
trials in order: the tree of operations does not matter, only its leaves from left to right. On the
way every column keeps the length of the others, the tally counts the tiers and the totals are sums.
-/
namespace BattleOdds

namespace Ledger

/-- The ledger of trials recorded one after another. -/
def ofEntries (entries : List Entry) : Ledger := entries.foldl push empty

@[simp] theorem ofEntries_nil : ofEntries [] = empty := rfl

theorem ofEntries_concat (entries : List Entry) (e : Entry) :
    ofEntries (entries ++ [e]) = (ofEntries entries).push e := by
  simp [ofEntries]

protected theorem append_assoc (l m k : Ledger) : l ++ m ++ k = l ++ (m ++ k) := by
  apply ext_column
  · apply Tally.ext_count
    intro t
    simp only [tally_append, Tally.count_merge]
    omega
  · intro c
    simp only [column_append, Array.append_assoc]

@[simp] protected theorem append_empty (l : Ledger) : l ++ empty = l := by
  apply ext_column
  · apply Tally.ext_count
    intro t
    simp [Tally.count_merge]
  · intro c
    simp only [column_append, column_empty, Array.append_empty]

@[simp] protected theorem empty_append (l : Ledger) : empty ++ l = l := by
  apply ext_column
  · apply Tally.ext_count
    intro t
    simp [Tally.count_merge]
  · intro c
    simp only [column_append, column_empty, Array.empty_append]

/-- To record a trial is to append the ledger of that trial alone. -/
theorem push_append (l m : Ledger) (e : Entry) : (l ++ m).push e = l ++ m.push e := by
  apply ext_column
  · apply Tally.ext_count
    intro t
    simp only [tally_push, tally_append, Tally.count_add, Tally.count_merge]
    omega
  · intro c
    simp only [column_push, column_append, Array.push_append]

/-- Further trials do not change the rows that are there. -/
theorem foldl_push (l : Ledger) (entries : List Entry) :
    entries.foldl push l = l ++ ofEntries entries := by
  induction entries using List.reverseRecOn with
  | nil => simp
  | append_singleton entries e ih => simp [ofEntries_concat, ← push_append, ih]

theorem ofEntries_append (entries others : List Entry) :
    ofEntries (entries ++ others) = ofEntries entries ++ ofEntries others := by
  rw [ofEntries, List.foldl_append, foldl_push]
  rfl

theorem column_ofEntries (entries : List Entry) (c : Column) :
    (ofEntries entries).column c = (entries.map (·.cell c)).toArray := by
  induction entries using List.reverseRecOn with
  | nil => simp
  | append_singleton entries e ih => simp [ofEntries_concat, ih]

@[simp] theorem size_ofEntries (entries : List Entry) :
    (ofEntries entries).size = entries.length := by
  rw [size_eq, column_ofEntries, List.size_toArray, List.length_map]

/-- Ledgers one after another. -/
def concat (parts : List Ledger) : Ledger := parts.foldl (· ++ ·) .empty

theorem foldl_append (l : Ledger) (parts : List Ledger) :
    parts.foldl (· ++ ·) l = l ++ concat parts := by
  induction parts generalizing l with
  | nil => exact l.append_empty.symm
  | cons part parts ih =>
    rw [concat, List.foldl_cons, List.foldl_cons, ih, ih (.empty ++ part), Ledger.empty_append,
      Ledger.append_assoc]

@[simp] theorem concat_cons (part : Ledger) (parts : List Ledger) :
    concat (part :: parts) = part ++ concat parts := by
  rw [concat, List.foldl_cons, foldl_append, Ledger.empty_append]

theorem column_concat (parts : List Ledger) (c : Column) :
    ((concat parts).column c).toList = (parts.map fun part => (part.column c).toList).flatten := by
  induction parts with
  | nil => rw [concat, List.foldl_nil, column_empty]; rfl
  | cons part parts ih => rw [concat_cons, column_append, Array.toList_append, ih]; rfl

/-- All columns have one length, the tally counts the tiers, and totals are sums of their parts. -/
structure Aligned (l : Ledger) : Prop where
  size_column (c : Column) : (l.column c).size = l.size
  count_tally (t : Tier) : l.tally.count t = l.tiers.count t
  total_tally : l.tally.total = l.size
  totalValue (side : Side) : (l.side side).totalValue
    = Array.zipWith (· + ·) (l.side side).usageValue (l.side side).lossesValue

namespace Aligned

theorem empty : Aligned .empty where
  size_column c := by simp [size_eq]
  count_tally t := by cases t <;> rfl
  total_tally := rfl
  totalValue side := by cases side <;> simp [Ledger.side, Ledger.empty]

theorem append {l m : Ledger} (hl : l.Aligned) (hm : m.Aligned) : (l ++ m).Aligned where
  size_column c := by rw [column_append, Array.size_append, hl.size_column, hm.size_column,
    size_append]
  count_tally t := by
    have htiers : (l ++ m).tiers = l.tiers ++ m.tiers := rfl
    rw [tally_append, Tally.count_merge, hl.count_tally, hm.count_tally, htiers, Array.count_append]
  total_tally := by
    rw [tally_append, Tally.total_merge, hl.total_tally, hm.total_tally, size_append]
  totalValue side := by
    have hsize : (l.side side).usageValue.size = (l.side side).lossesValue.size :=
      (hl.size_column (.booked side .usageValue)).trans
        (hl.size_column (.booked side .lossesValue)).symm
    have hside : (l ++ m).side side = l.side side ++ m.side side := by cases side <;> rfl
    rw [hside]
    calc (l.side side ++ m.side side).totalValue
      _ = (l.side side).totalValue ++ (m.side side).totalValue := rfl
      _ = Array.zipWith (· + ·) ((l.side side).usageValue ++ (m.side side).usageValue)
            ((l.side side).lossesValue ++ (m.side side).lossesValue) := by
          rw [Array.zipWith_append hsize, hl.totalValue, hm.totalValue]

/-- The ledger of one trial. -/
theorem single (e : Entry) : (Ledger.empty.push e).Aligned where
  size_column c := by simp [size_eq]
  count_tally t := by
    have htiers : (Ledger.empty.push e).tiers = #[e.tier] := rfl
    rw [tally_push, Tally.count_add, tally_empty, Tally.count_empty, htiers]
    by_cases h : e.tier = t <;> simp [h]
  total_tally := by
    rw [tally_push, Tally.total_add, size_push]
    rfl
  totalValue side := by
    have hside : (Ledger.empty.push e).side side
        = SideColumns.record {} (e.losses side) (e.costs side).usage (e.costs side).usageValue
          (e.lossesValue side) := by cases side <;> rfl
    rw [hside]
    simp [SideColumns.record]

theorem push {l : Ledger} (h : l.Aligned) (e : Entry) : (l.push e).Aligned := by
  have hpush : l.push e = l ++ Ledger.empty.push e := by rw [← push_append, Ledger.append_empty]
  rw [hpush]
  exact h.append (single e)

theorem ofEntries (entries : List Entry) : (ofEntries entries).Aligned := by
  induction entries using List.reverseRecOn with
  | nil => exact .empty
  | append_singleton entries e ih =>
    rw [ofEntries_concat]
    exact ih.push e

theorem concat {parts : List Ledger} (h : ∀ part ∈ parts, part.Aligned) :
    (concat parts).Aligned := by
  induction parts with
  | nil => exact .empty
  | cons part parts ih =>
    rw [concat_cons]
    exact (h part List.mem_cons_self).append (ih fun l hl => h l (List.mem_cons_of_mem part hl))

theorem isSome_bind_getElem? {α β : Type} {cells : Array α} {i : Nat} {f : α → Option β}
    (hi : i < cells.size) (hf : ∀ x, (f x).isSome) : (cells[i]? >>= f).isSome := by
  rw [Array.getElem?_eq_getElem hi]
  exact hf cells[i]

theorem exists_mapM_eq_some {α β : Type} {f : α → Option β} {xs : List α}
    (hf : ∀ x ∈ xs, (f x).isSome) : ∃ ys, xs.mapM f = some ys ∧ ys.length = xs.length := by
  induction xs with
  | nil => exact ⟨[], rfl, rfl⟩
  | cons x xs ih =>
    obtain ⟨y, hy⟩ := Option.isSome_iff_exists.mp (hf x List.mem_cons_self)
    obtain ⟨ys, hys, hlength⟩ := ih fun z hz => hf z (List.mem_cons_of_mem x hz)
    exact ⟨y :: ys, by simp [hy, hys], by simp [hlength]⟩

/-- The export finds every cell of a row. -/
theorem isSome_csvCells? {l : Ledger} (h : l.Aligned) {i : Nat} (hi : i < l.size) :
    (l.csvCells? i).isSome := by
  have reach (c : Column) : i < (l.column c).size := (h.size_column c).symm ▸ hi
  have attacker (f : Figure) : i < (l.attacker.column f).size := reach (.booked .attacker f)
  have defender (f : Figure) : i < (l.defender.column f).size := reach (.booked .defender f)
  unfold csvCells?
  refine isSome_bind_getElem? (reach .tier) fun _ => ?_
  refine isSome_bind_getElem? (attacker .soldiers) fun _ => ?_
  refine isSome_bind_getElem? (attacker .tanks) fun _ => ?_
  refine isSome_bind_getElem? (attacker .aircraft) fun _ => ?_
  refine isSome_bind_getElem? (attacker .ships) fun _ => ?_
  refine isSome_bind_getElem? (defender .soldiers) fun _ => ?_
  refine isSome_bind_getElem? (defender .tanks) fun _ => ?_
  refine isSome_bind_getElem? (defender .aircraft) fun _ => ?_
  refine isSome_bind_getElem? (defender .ships) fun _ => ?_
  refine isSome_bind_getElem? (reach .infraDestroyed) fun _ => ?_
  refine isSome_bind_getElem? (reach .moneyLooted) fun _ => ?_
  refine isSome_bind_getElem? (reach .improvementChance) fun _ => ?_
  refine isSome_bind_getElem? (attacker .totalValue) fun _ => ?_
  exact isSome_bind_getElem? (defender .totalValue) fun _ => rfl

/-- The export of an aligned ledger has one row for each trial. -/
theorem length_csvRows? {l : Ledger} (h : l.Aligned) :
    ∃ rows, l.csvRows? = some rows ∧ rows.length = l.size := by
  have hcells : ∀ i ∈ List.range l.size, (l.csvCells? i).isSome := fun i hi =>
    h.isSome_csvCells? (List.mem_range.mp hi)
  obtain ⟨rows, hrows, hlength⟩ := exists_mapM_eq_some hcells
  exact ⟨rows, hrows, hlength.trans List.length_range⟩

end Aligned

end Ledger

/-- The ways to put a ledger together: from an empty one, by a record at its end, or by a merge. -/
inductive Assembly
  | fresh (capacity : Nat)
  | record (before : Assembly) (entry : Entry)
  | merge (first second : Assembly)

namespace Assembly

/-- The ledger that the operations make. -/
def ledger : Assembly → Ledger
  | .fresh capacity => .withCapacity capacity
  | .record before e => before.ledger.record e.result e.attackerLossesValue e.defenderLossesValue
      e.attackerCosts e.defenderCosts
  | .merge first second => first.ledger ++ second.ledger

/-- The recorded trials from left to right. -/
def entries : Assembly → List Entry
  | .fresh _ => []
  | .record before e => before.entries ++ [e]
  | .merge first second => first.entries ++ second.entries

/-- The tree of operations does not show in the ledger. -/
theorem ledger_eq_ofEntries (a : Assembly) : a.ledger = .ofEntries a.entries := by
  induction a with
  | fresh capacity => rfl
  | record before e ih =>
    rw [entries, Ledger.ofEntries_concat, ← ih]
    rfl
  | merge first second ihFirst ihSecond =>
    rw [ledger, entries, Ledger.ofEntries_append, ihFirst, ihSecond]

theorem aligned_ledger (a : Assembly) : a.ledger.Aligned := by
  induction a with
  | fresh capacity => exact Ledger.Aligned.empty
  | record before e ih => exact ih.push e
  | merge first second ihFirst ihSecond => exact ihFirst.append ihSecond

/-- A tier is the number of won rounds, but at most three. -/
theorem rounds_tiers (a : Assembly) :
    a.ledger.tiers.toList.map Tier.rounds = a.entries.map fun e => min e.result.roundsWon 3 := by
  have htiers : a.ledger.tiers = (a.entries.map Entry.tier).toArray := by
    rw [ledger_eq_ofEntries]
    exact Ledger.column_ofEntries a.entries .tier
  rw [htiers, List.toList_toArray, List.map_map]
  exact List.map_congr_left fun e _ => Tier.rounds_ofRounds e.result.roundsWon

end Assembly

/-- A ledger is the sequence of its trials: whatever operations made it, it is what recording them
in order into an empty ledger makes, its columns are aligned, counted and summed, and it exports.
Merging is associative and the empty ledger is its unit. -/
theorem ledger_algebra :
    (∀ a : Assembly,
      a.ledger = a.entries.foldl Ledger.push .empty
      ∧ (∀ c : Column, (a.ledger.column c).size = a.ledger.size)
      ∧ (∀ tier ∈ a.ledger.tiers, tier.rounds ≤ 3)
      ∧ a.ledger.tiers.toList.map Tier.rounds = a.entries.map (fun e => min e.result.roundsWon 3)
      ∧ (∀ t : Tier, a.ledger.tally.count t = a.ledger.tiers.count t)
      ∧ a.ledger.tally.total = a.ledger.size
      ∧ (∀ side : Side, (a.ledger.side side).totalValue
          = Array.zipWith (· + ·) (a.ledger.side side).usageValue (a.ledger.side side).lossesValue)
      ∧ (∀ i : Fin a.ledger.size, (a.ledger.csvCells? i).isSome)
      ∧ ∃ rows, a.ledger.csvRows? = some rows ∧ rows.length = a.ledger.size)
    ∧ (∀ l m k : Ledger, l ++ m ++ k = l ++ (m ++ k))
    ∧ (∀ l : Ledger, .empty ++ l = l ∧ l ++ .empty = l)
    ∧ ∀ n : Nat, Ledger.withCapacity n = .empty := by
  refine ⟨fun a => ?_, Ledger.append_assoc, fun l => ⟨l.empty_append, l.append_empty⟩,
    Ledger.withCapacity_eq_empty⟩
  have h : a.ledger.Aligned := a.aligned_ledger
  exact ⟨a.ledger_eq_ofEntries, h.size_column, fun tier _ => tier.rounds_le_three, a.rounds_tiers,
    h.count_tally, h.total_tally, h.totalValue, fun i => h.isSome_csvCells? i.isLt,
    h.length_csvRows?⟩

end BattleOdds
