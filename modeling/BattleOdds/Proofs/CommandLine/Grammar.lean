import BattleOdds.Proofs.CommandLine

/-!
# The grammar of options

The words after a command are a row of groups: an option with its value, the word `--parallel`, or
the name of the file with the request, at most once. This module says which rows there are, which
options they stand for and what may be wrong with words that are none. Of groups for one option the
last counts. Options that are written out say nothing twice, so their groups may stand in any order.
-/
namespace BattleOdds

/-! ## Numbers -/

/-- A word stands for a number in decimal: at least one digit, perhaps after a plus sign. -/
def NamesNumber (word : String) (n : ℕ) : Prop :=
  ∃ digits, (word.toList = digits ∨ word.toList = '+' :: digits)
    ∧ digits ≠ [] ∧ (∀ c ∈ digits, c.isDigit = true) ∧ Nat.ofDigitChars 10 digits 0 = n

/-- The digits after a plus sign, or of a word without one. -/
def unsignedDigits : List Char → List Char
  | '+' :: digits => digits
  | digits => digits

theorem namesNumber_iff {word : String} {n : ℕ} :
    NamesNumber word n ↔ Plain.radix? 10 (unsignedDigits word.toList) = some n := by
  simp only [NamesNumber, ← Plain.radix?_ten_eq_some_iff]
  generalize word.toList = cs
  unfold unsignedDigits
  split
  · rename_i digits
    constructor
    · rintro ⟨ds, rfl | hsign, h⟩
      · exact absurd ((Plain.radix?_ten_eq_some_iff.mp h).2.1 '+' (by simp)) (by decide)
      · cases hsign
        exact h
    · exact fun h => ⟨digits, .inr rfl, h⟩
  · rename_i hsign
    constructor
    · rintro ⟨ds, rfl | rfl, h⟩
      · exact h
      · exact absurd rfl (hsign ds)
    · exact fun h => ⟨cs, .inl rfl, h⟩

theorem wordNumber?_eq (word : String) :
    wordNumber? word = (Plain.radix? 10 (unsignedDigits word.toList)).bind fun n =>
      if fitsUnsigned 64 n then some n.toUInt64 else none := by
  unfold wordNumber?
  dsimp only
  split
  · rename_i n h
    have hdigits : Plain.radix? 10 (unsignedDigits word.toList) = some n := h
    rw [hdigits, Option.bind_some]
  · rename_i h
    have hdigits : Plain.radix? 10 (unsignedDigits word.toList) = none := h
    rw [hdigits, Option.bind_none]

/-- Words are read exactly where they stand for a number of 64 bits. -/
theorem wordNumber?_eq_some_iff {word : String} {n : UInt64} :
    wordNumber? word = some n ↔ NamesNumber word n.toNat := by
  rw [wordNumber?_eq, namesNumber_iff, Option.bind_eq_some_iff]
  constructor
  · rintro ⟨k, hk, h⟩
    split_ifs at h with hfits
    cases h
    rw [fitsUnsigned_64_iff] at hfits
    have hlt : k < UInt64.size := by
      rw [UInt64.size]
      omega
    rwa [Nat.toUInt64_eq, UInt64.toNat_ofNat_of_lt' hlt]
  · intro h
    exact ⟨n.toNat, h, by simp [fitsUnsigned_word64]⟩

theorem wordNumber?_eq_none_iff {word : String} :
    wordNumber? word = none ↔ ∀ n : UInt64, ¬ NamesNumber word n.toNat := by
  simp only [Option.eq_none_iff_forall_ne_some, Ne, wordNumber?_eq_some_iff]

/-! ## Groups -/

/-- The words that belong together on a command line. A number comes with the word that names it. -/
inductive WordGroup
  | prices (path : String)
  | config (path : String)
  | samplesCsv (path : String)
  | seed (word : String) (n : UInt64)
  | workers (word : String) (n : UInt64)
  | parallel
  | request (path : String)
deriving DecidableEq

namespace WordGroup

def words : WordGroup → List String
  | prices path => ["--prices", path]
  | config path => ["--config", path]
  | samplesCsv path => ["--samples-csv", path]
  | seed word _ => ["--seed", word]
  | workers word _ => ["--workers", word]
  | parallel => ["--parallel"]
  | request path => [path]

theorem words_ne_nil (g : WordGroup) : g.words ≠ [] := by
  cases g <;> exact List.cons_ne_nil _ _

/-- The values of options may be any words, but numbers must be named, and the name of a request
must not look like an option. -/
def WellFormed : WordGroup → Prop
  | seed word n | workers word n => NamesNumber word n.toNat
  | request path => path.startsWith "--" = false
  | _ => True

@[simp] def prices? : WordGroup → Option String
  | prices path => some path
  | _ => none

@[simp] def config? : WordGroup → Option String
  | config path => some path
  | _ => none

@[simp] def samplesCsv? : WordGroup → Option String
  | samplesCsv path => some path
  | _ => none

@[simp] def seed? : WordGroup → Option UInt64
  | seed _ n => some n
  | _ => none

@[simp] def workers? : WordGroup → Option UInt64
  | workers _ n => some n
  | _ => none

@[simp] def request? : WordGroup → Option String
  | request path => some path
  | _ => none

end WordGroup

/-- Groups that a command line may have, in any order; only the request may not be repeated. -/
structure Sentence (groups : List WordGroup) : Prop where
  wellFormed : ∀ g ∈ groups, g.WellFormed
  requests_le : (groups.filterMap WordGroup.request?).length ≤ 1

/-- What is wrong with words that do not begin with a group, as it is told. A second request is
wrong, so it matters whether there has been one. -/
inductive Offends (requested : Prop) : List String → String → Prop
  | missingValue (option : ValueOption) :
    Offends requested [option.name] (option.name ++ " requires a value")
  | invalidSeed (word : String) (rest : List String)
    (h : ∀ n : UInt64, ¬ NamesNumber word n.toNat) :
    Offends requested ("--seed" :: word :: rest) ("invalid seed '" ++ word ++ "'")
  | invalidWorkers (word : String) (rest : List String)
    (h : ∀ n : UInt64, ¬ NamesNumber word n.toNat) :
    Offends requested ("--workers" :: word :: rest) ("invalid workers '" ++ word ++ "'")
  | unknownOption (word : String) (rest : List String) (hdash : word.startsWith "--" = true)
    (hvalue : ∀ option : ValueOption, word ≠ option.name) (hparallel : word ≠ "--parallel") :
    Offends requested (word :: rest) ("unknown flag '" ++ word ++ "'")
  | unexpected (word : String) (rest : List String) (hdash : word.startsWith "--" = false)
    (h : requested) : Offends requested (word :: rest) ("unexpected argument '" ++ word ++ "'")

/-! ## The options of groups -/

namespace Options

variable {o : Options}

/-- What options there are for a row of groups alone. -/
def ofGroups (groups : List WordGroup) : Options where
  requestPath := (groups.filterMap WordGroup.request?).getLast?
  pricesPath := (groups.filterMap WordGroup.prices?).getLast?
  configPath := (groups.filterMap WordGroup.config?).getLast?
  seed := (groups.filterMap WordGroup.seed?).getLast?
  parallel := groups.contains .parallel
  workers := (groups.filterMap WordGroup.workers?).getLast?
  samplesCsv := (groups.filterMap WordGroup.samplesCsv?).getLast?

theorem isSome_requestPath_ofGroups (groups : List WordGroup) :
    (ofGroups groups).requestPath.isSome = true ↔ ∃ path, .request path ∈ groups := by
  have hrequest (g : WordGroup) (path : String) : g.request? = some path ↔ g = .request path := by
    cases g <;> simp
  have hmem (path : String) :
      path ∈ groups.filterMap WordGroup.request? ↔ .request path ∈ groups := by
    simp only [List.mem_filterMap, hrequest, exists_eq_right]
  simp only [ofGroups, List.getLast?_isSome, ← hmem]
  exact ⟨List.exists_mem_of_ne_nil _, fun ⟨_, h⟩ => List.ne_nil_of_mem h⟩

/-- The groups that say what the options are, numbers in decimal. -/
def toGroups (o : Options) : List WordGroup :=
  o.requestPath.toList.map .request ++ o.pricesPath.toList.map .prices
    ++ o.configPath.toList.map .config ++ o.seed.toList.map (fun n => .seed (toString n.toNat) n)
    ++ (if o.parallel then [.parallel] else [])
    ++ o.workers.toList.map (fun n => .workers (toString n.toNat) n)
    ++ o.samplesCsv.toList.map .samplesCsv

theorem getLast?_of_perm_toList {α : Type} {xs : List α} {x : Option α} (h : xs.Perm x.toList) :
    xs.getLast? = x := by
  cases x <;> simp_all

theorem filterMap_map_toList {α β γ : Type} (f : α → β) (p : β → Option γ) (x : Option α) :
    (x.toList.map f).filterMap p = (x.bind fun a => p (f a)).toList := by
  cases x with
  | none => rfl
  | some a => cases h : p (f a) <;> simp [h]

/-- Each option is said once if it is there. -/
theorem filterMap_toGroups (o : Options) :
    o.toGroups.filterMap WordGroup.request? = o.requestPath.toList
    ∧ o.toGroups.filterMap WordGroup.prices? = o.pricesPath.toList
    ∧ o.toGroups.filterMap WordGroup.config? = o.configPath.toList
    ∧ o.toGroups.filterMap WordGroup.seed? = o.seed.toList
    ∧ o.toGroups.filterMap WordGroup.workers? = o.workers.toList
    ∧ o.toGroups.filterMap WordGroup.samplesCsv? = o.samplesCsv.toList := by
  simp only [toGroups, List.filterMap_append, filterMap_map_toList]
  simp

theorem contains_toGroups (o : Options) : o.toGroups.contains .parallel = o.parallel := by
  cases h : o.parallel <;> simp [toGroups, h]

/-- Nothing is said twice, so the order of the groups does not matter. -/
theorem ofGroups_of_perm {l : List WordGroup} (h : l.Perm o.toGroups) : ofGroups l = o := by
  obtain ⟨hrequest, hprices, hconfig, hseed, hworkers, hsamplesCsv⟩ := o.filterMap_toGroups
  have hlast {α : Type} (p : WordGroup → Option α) {x : Option α}
      (hx : o.toGroups.filterMap p = x.toList) : (l.filterMap p).getLast? = x :=
    getLast?_of_perm_toList (hx ▸ h.filterMap p)
  have hparallel : l.contains .parallel = o.parallel := by
    rw [h.contains_eq, contains_toGroups]
  simp only [ofGroups, hlast _ hrequest, hlast _ hprices, hlast _ hconfig, hlast _ hseed,
    hlast _ hworkers, hlast _ hsamplesCsv, hparallel]

theorem namesNumber_toString (n : UInt64) : NamesNumber (toString n.toNat) n.toNat :=
  wordNumber?_eq_some_iff.mp (wordNumber?_toString n)

theorem sentence_of_perm {l : List WordGroup} (h : l.Perm o.toGroups)
    (hpath : ∀ path ∈ o.requestPath, path.startsWith "--" = false) : Sentence l := by
  constructor
  · intro g hg
    have hmem := h.subset hg
    simp only [toGroups, List.mem_append, List.mem_map, Option.mem_toList, or_assoc] at hmem
    rcases hmem with ⟨path, hreq, rfl⟩ | ⟨path, -, rfl⟩ | ⟨path, -, rfl⟩ | ⟨n, -, rfl⟩ | hparallel
      | ⟨n, -, rfl⟩ | ⟨path, -, rfl⟩
    · exact hpath path hreq
    · trivial
    · trivial
    · exact namesNumber_toString n
    · split_ifs at hparallel
      · rw [List.mem_singleton.mp hparallel]
        trivial
      · cases hparallel
    · exact namesNumber_toString n
    · trivial
  · rw [(h.filterMap _).length_eq, o.filterMap_toGroups.1]
    cases o.requestPath <;> simp

end Options

end BattleOdds
