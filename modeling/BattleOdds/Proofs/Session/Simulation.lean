import BattleOdds.Proofs.CommandLine
import BattleOdds.Proofs.Run.Substreams
import BattleOdds.Proofs.Session.Outcome

/-!
# What a simulation takes from where

A simulation takes its request from one file, its settings from another and its prices perhaps from
a third, and puts the command line before them. Nothing else decides what it prints. The number of
workers decides only whether there are trials at all: where the machine can start a pool of so many,
the answer is that of any other pool. So the same command line with the seed of the report comes to
the same odds and metrics wherever these files read as they did and the machine has the workers.
-/
namespace BattleOdds

/-- The name of the settings file: that of the command line, or else that of the environment, or
else the default one. -/
def settingsFile (settingsPath : Option String) (options : Options) : String :=
  match options.configPath, settingsPath with
  | some path, _ => path
  | none, some path => path
  | none, none => "warodds.yaml"

/-- The files that a simulation reads. -/
def inputFiles (settingsPath : Option String) (options : Options) (path : String) : List String :=
  path :: settingsFile settingsPath options :: options.pricesPath.toList

variable {settingsPath : Option String} {options : Options} {path : String} {folder : Folder}

/-- What a folder supplies for a simulation: a valid request, the kept settings, which are the
default ones where their file is absent, and the prices, which are those of the file for them as a
whole or else the kept ones. -/
structure Folder.Supplies (folder : Folder) (settingsPath : Option String) (options : Options)
    (path : String) (r : Request) (kept : Settings) (prices : Prices) : Prop where
  request : folder.Holds path r
  valid : r.faults = []
  settings : let file := settingsFile settingsPath options
    folder.Holds file kept ∨ ¬ folder.Exists file ∧ kept = {}
  prices : match options.pricesPath with
    | some file => folder.Holds file prices
    | none => prices = kept.prices

/-- How a simulation runs: in batches if the command line or the settings say so, and then on as
many workers as the command line says, or else the settings. -/
def Options.runner (options : Options) (kept : Settings) : Runner :=
  if options.parallel || kept.parallel then .batched (options.workers.getD kept.workers)
  else .sequential

/-! ## Supplies -/

theorem Folder.Holds.congr {α : Type} [FromNode α] {again : Folder} {path : String} {a : α}
    (h : folder.Holds path a) (hload : again.load path = folder.load path) :
    again.Holds path a := by
  obtain ⟨s, hs, ha⟩ := h
  exact ⟨s, hload.trans hs, ha⟩

theorem Folder.exists_congr {again : Folder} {path : String}
    (hload : again.load path = folder.load path) : again.Exists path ↔ folder.Exists path := by
  rw [← not_iff_not, Folder.not_exists_iff, Folder.not_exists_iff, hload]

namespace Folder.Supplies

variable {r : Request} {kept : Settings} {prices : Prices}

theorem unique {r' : Request} {kept' : Settings} {prices' : Prices}
    (h : folder.Supplies settingsPath options path r kept prices)
    (h' : folder.Supplies settingsPath options path r' kept' prices') :
    r = r' ∧ kept = kept' ∧ prices = prices' := by
  obtain rfl : kept = kept' := Keeps.unique h.settings h'.settings
  exact ⟨h.request.unique h'.request, rfl, Charges.unique h.prices h'.prices⟩

/-- Another folder with the same files supplies the same. -/
theorem congr {again : Folder} (h : folder.Supplies settingsPath options path r kept prices)
    (hload : ∀ file ∈ inputFiles settingsPath options path, again.load file = folder.load file) :
    again.Supplies settingsPath options path r kept prices where
  request := h.request.congr (hload path (by simp [inputFiles]))
  valid := h.valid
  settings := by
    have hfile := hload (settingsFile settingsPath options) (by simp [inputFiles])
    obtain hholds | ⟨habsent, hkept⟩ := h.settings
    · exact Or.inl (hholds.congr hfile)
    · exact Or.inr ⟨mt (Folder.exists_congr hfile).mp habsent, hkept⟩
  prices := by
    have hprices := h.prices
    cases hpath : options.pricesPath with
    | some file =>
      rw [hpath] at hprices
      exact hprices.congr (hload file (by simp [inputFiles, hpath]))
    | none => rwa [hpath] at hprices

end Folder.Supplies

variable {machine : Machine} {args : List String} {r : Request} {kept : Settings} {prices : Prices}

/-- The seed of a request shows in its draws only, whichever way it runs. -/
theorem Runner.run_seed (runner : Runner) (plan : Plan) (r : Request) (named : Option UInt64)
    (seed : UInt64) : runner.run plan { r with seed := named } seed = runner.run plan r seed := by
  cases runner with
  | sequential => rw [run, run, Plan.sequential, Plan.sequential, Plan.run_seed]
  | batched => rw [run, run, Plan.batched_seed]

end BattleOdds
