import BattleOdds.Files.Folder
import Mathlib.Data.List.Infix

/-!
# Reading and writing in a folder

A path leads to at most one place, and only a missing end or a way that is blocked keeps it from
leading anywhere. Writing a file puts a text at the place that its path leads to and touches no
other place: all on the way were folders before, so none of them is the place that is written, and
all of them are folders after.
-/
namespace BattleOdds

namespace Folder

/-- A bind that gives a value gave one before. -/
theorem exists_of_bind_eq_ok {ε α β : Type} {x : Except ε α} {k : α → Except ε β} {b : β}
    (h : (x >>= k) = .ok b) : ∃ a, x = .ok a ∧ k a = .ok b := by
  cases x with
  | error e => cases h
  | ok a => exact ⟨a, rfl, h⟩

variable {f after : Folder} {path s : String} {p place parent : List String}

/-! ## Ways -/

/-- The place that a path leads to. -/
def resolve (f : Folder) (path : String) : Except FileFault (List String) := do
  f.walk (f.start path) (← names? path)

/-- There is something at the end of the path. -/
def Exists (f : Folder) (path : String) : Prop :=
  ∃ place, f.resolve path = .ok place ∧ f.at? place ≠ none

theorem walk_cons (name : String) (names : List String) :
    f.walk p (name :: names) = (f.walk p [name]).bind (f.walk · names) := by
  rw [walk, walk]
  cases f.at? p with
  | none => rfl
  | some content =>
    cases content with
    | text s => rfl
    | garbled => rfl
    | folder =>
      dsimp only
      split_ifs <;> rfl

theorem walk_append (names others : List String) :
    f.walk p (names ++ others) = (f.walk p names).bind (f.walk · others) := by
  induction names generalizing p with
  | nil => rfl
  | cons name names ih =>
    rw [List.cons_append, walk_cons, walk_cons name names]
    cases f.walk p [name] with
    | error fault => rfl
    | ok q => exact ih

/-- A step onto a name leads into the folder where it is taken. -/
theorem walk_single {name : String} (h : isFolderName name = false) :
    f.walk p [name] = .ok place
      ↔ f.at? p = some .folder ∧ name.utf8ByteSize ≤ nameLimit ∧ place = p ++ [name] := by
  obtain ⟨hstay, hup⟩ : ((name = "" || name = ".") = false) ∧ ¬ name = ".." := by
    rwa [isFolderName, Bool.or_eq_false_iff, decide_eq_false_iff_not] at h
  rw [walk, hstay]
  cases f.at? p with
  | none => simp
  | some content =>
    cases content with
    | text s => simp
    | garbled => simp
    | folder =>
      simp only [Bool.false_eq_true, if_false, if_neg hup]
      split_ifs with hlong
      · simp [hlong.not_ge]
      · simp [not_lt.mp hlong, walk, eq_comm]

/-- A path that leads nowhere leads to nothing. -/
theorem isAbsent_of_walk {names : List String} {fault : FileFault}
    (h : f.walk p names = .error fault) : fault.isAbsent = true := by
  induction names generalizing p with
  | nil => cases h
  | cons name names ih =>
    rw [walk] at h
    split at h
    · cases h
      rfl
    · split_ifs at h
      · exact ih h
      · exact ih h
      · cases h
        rfl
      · exact ih h
    · cases h
      rfl

theorem isAbsent_of_names? {fault : FileFault} (h : names? path = .error fault) :
    fault.isAbsent = true := by
  unfold names? at h
  split_ifs at h <;> cases h <;> rfl

theorem isAbsent_of_resolve {fault : FileFault} (h : f.resolve path = .error fault) :
    fault.isAbsent = true := by
  cases hnames : names? path with
  | error e =>
    rw [resolve, hnames] at h
    cases h
    exact isAbsent_of_names? hnames
  | ok names =>
    rw [resolve, hnames] at h
    exact isAbsent_of_walk h

/-- What is read at the end of a way. -/
def textOf : Option FileContent → Except FileFault String
  | none => .error .missing
  | some .folder => .error .isFolder
  | some .garbled => .error .notText
  | some (.text s) => .ok s

theorem load_eq (f : Folder) (path : String) :
    f.load path = (f.resolve path).bind fun place => textOf (f.at? place) := by
  have htext (place : List String) : textOf (f.at? place) = match f.at? place with
      | none => .error .missing
      | some .folder => .error .isFolder
      | some .garbled => .error .notText
      | some (.text s) => .ok s := by
    cases f.at? place with
    | none => rfl
    | some content => cases content <;> rfl
  simp only [htext, load, resolve]
  cases names? path with
  | error fault => rfl
  | ok names => rfl

theorem isAbsent_iff_of_textOf {content : Option FileContent} {fault : FileFault}
    (h : textOf content = .error fault) : fault.isAbsent = true ↔ content = none := by
  cases content with
  | none =>
    cases h
    exact iff_of_true rfl rfl
  | some content => cases content <;> cases h <;> exact iff_of_false (by decide) (by simp)

/-- A file is absent just where its path leads to nothing. -/
theorem isAbsent_iff_of_load {fault : FileFault} (h : f.load path = .error fault) :
    fault.isAbsent = true ↔ ¬ f.Exists path := by
  rw [load_eq] at h
  cases hplace : f.resolve path with
  | error e =>
    rw [hplace] at h
    cases h
    refine iff_of_true (isAbsent_of_resolve hplace) ?_
    rintro ⟨place, hresolve, -⟩
    rw [hplace] at hresolve
    cases hresolve
  | ok place =>
    rw [hplace] at h
    have hexists : f.Exists path ↔ f.at? place ≠ none := by
      rw [Exists, hplace]
      simp
    rw [isAbsent_iff_of_textOf h, hexists, not_not]

theorem exists_of_load (h : f.load path = .ok s) : f.Exists path := by
  rw [load_eq] at h
  cases hplace : f.resolve path with
  | error e =>
    rw [hplace] at h
    cases h
  | ok place =>
    rw [hplace] at h
    refine ⟨place, hplace, fun habsent => ?_⟩
    have htext : textOf (f.at? place) = .ok s := h
    rw [habsent] at htext
    cases htext

theorem not_exists_iff (f : Folder) (path : String) :
    ¬ f.Exists path ↔ ∃ fault, f.load path = .error fault ∧ fault.isAbsent = true := by
  constructor
  · intro habsent
    cases hload : f.load path with
    | ok s => exact absurd (exists_of_load hload) habsent
    | error fault => exact ⟨fault, rfl, (isAbsent_iff_of_load hload).mpr habsent⟩
  · rintro ⟨fault, hload, habsent⟩
    exact (isAbsent_iff_of_load hload).mp habsent

/-! ## Files that can be made -/

/-- The path names a file that can be made, or written over, at a place. -/
structure Target (f : Folder) (path : String) (place : List String) : Prop where
  resolve : f.resolve path = .ok place
  /-- The path does not end in a slash or in a name of a folder. -/
  named : ∃ names last, names? path = .ok (names ++ [last]) ∧ isFolderName last = false
  vacant : f.at? place ≠ some .folder

/-- A file can be made where the path leads. -/
def CanStore (f : Folder) (path : String) : Prop := ∃ place, f.Target path place

/-- The folder with a text at a place, in place of what was there. -/
def put (f : Folder) (place : List String) (s : String) : Folder :=
  { f with entries := (f.entries.filter fun entry => entry.place ≠ place) ++ [⟨place, .text s⟩] }

/-- What is left of a way without slashes at its end is the way, if nothing is cut off. -/
theorem eq_of_dropWhile_reverse {names parents : List String} {last : String}
    (h : names.reverse.dropWhile (· = "") = last :: parents)
    (hlength : ¬ (last :: parents).length < names.length) :
    names = parents.reverse ++ [last] := by
  have hsuffix := List.dropWhile_suffix (fun name : String => decide (name = ""))
    (l := names.reverse)
  rw [h] at hsuffix
  have hreverse : last :: parents = names.reverse :=
    hsuffix.eq_of_length_le (by rw [List.length_reverse]; exact not_lt.mp hlength)
  rw [← List.reverse_reverse names, ← hreverse, List.reverse_cons]

/-- A text that has been written stands at the place that its path leads to. -/
theorem exists_target_of_store (h : f.store path s = .ok after) :
    ∃ place, f.Target path place ∧ after = f.put place s := by
  obtain ⟨names, hnames, h⟩ := exists_of_bind_eq_ok h
  dsimp only at h
  split at h
  case h_1 => cases h
  case h_2 last parents hstem =>
    obtain ⟨parent, hparent, h⟩ := exists_of_bind_eq_ok h
    split at h
    case h_1 => cases h
    case h_3 => cases h
    case h_2 =>
      split_ifs at h with hname
      obtain ⟨place, hplace, h⟩ := exists_of_bind_eq_ok h
      split_ifs at h with hvacant
      cases h
      obtain ⟨hfile, hlength⟩ : isFolderName last = false
          ∧ ¬ (names.reverse.dropWhile (· = "")).length < names.length := by
        simpa using hname
      have heq := eq_of_dropWhile_reverse hstem (hstem ▸ hlength)
      refine ⟨place, ⟨?_, ⟨_, last, heq ▸ hnames, hfile⟩, hvacant⟩, rfl⟩
      rw [resolve, hnames, heq]
      change f.walk (f.start path) (parents.reverse ++ [last]) = .ok place
      rw [walk_append, hparent]
      exact hplace

/-- Any text can be written where a file can be made. -/
theorem Target.store (h : f.Target path place) (s : String) :
    f.store path s = .ok (f.put place s) := by
  obtain ⟨names, last, hnames, hfile⟩ := h.named
  have hresolve := h.resolve
  rw [Folder.resolve, hnames] at hresolve
  change f.walk (f.start path) (names ++ [last]) = .ok place at hresolve
  rw [walk_append] at hresolve
  obtain ⟨parent, hparent, hplace⟩ := exists_of_bind_eq_ok hresolve
  have hnonempty : ¬ decide (last = "") = true := by
    rintro hempty
    rw [isFolderName, hempty] at hfile
    cases hfile
  have hstem : (names ++ [last]).reverse.dropWhile (· = "") = last :: names.reverse := by
    rw [List.reverse_append, List.reverse_singleton, List.singleton_append]
    exact List.dropWhile_cons_of_neg hnonempty
  obtain ⟨hparent_folder, -, -⟩ := (walk_single hfile).mp hplace
  unfold Folder.store
  simp only [hnames, hstem, hparent, hplace, hparent_folder, hfile, h.vacant, List.reverse_reverse,
    bind, Except.bind]
  have hlength : ¬ (last :: names.reverse).length < (names ++ [last]).length := by simp
  rw [Bool.false_or, if_neg (mt of_decide_eq_true hlength), if_neg not_false]
  rfl

/-- Whether a file can be made does not depend on what is written. -/
theorem canStore_iff (f : Folder) (path s : String) :
    f.CanStore path ↔ ∃ after, f.store path s = .ok after := by
  constructor
  · rintro ⟨place, h⟩
    exact ⟨_, h.store s⟩
  · rintro ⟨after, h⟩
    obtain ⟨place, htarget, -⟩ := exists_target_of_store h
    exact ⟨place, htarget⟩

/-! ## What writing leaves as it is -/

/-- Whether a place is on the way to another one. -/
def passes (f : Folder) (p : List String) : Bool :=
  p.isPrefixOf f.home || f.entries.any (p.isPrefixOf ·.place)

theorem passes_iff (f : Folder) (p : List String) :
    f.passes p = true ↔ p <+: f.home ∨ ∃ entry ∈ f.entries, p <+: entry.place := by
  simp only [passes, Bool.or_eq_true, List.any_eq_true, List.isPrefixOf_iff_prefix]

theorem at?_eq (f : Folder) (p : List String) :
    f.at? p = match f.entries.find? fun entry => entry.place = p with
      | some entry => some entry.content
      | none => if f.passes p then some .folder else none := rfl

/-- What is on the way to a folder is on a way. -/
theorem passes_of_prefix (h : f.at? parent = some .folder) (hp : p <+: parent) :
    f.passes p = true := by
  rw [at?_eq] at h
  rw [passes_iff]
  split at h
  case h_1 entry hfind =>
    have hplace : entry.place = parent := by simpa using List.find?_some hfind
    exact Or.inr ⟨entry, List.mem_of_find?_eq_some hfind, hplace ▸ hp⟩
  case h_2 hnone =>
    split_ifs at h with hpasses
    obtain hhome | ⟨entry, hentry, hbelow⟩ := (f.passes_iff parent).mp hpasses
    · exact Or.inl (hp.trans hhome)
    · exact Or.inr ⟨entry, hentry, hp.trans hbelow⟩

/-- Putting a text at a place changes what is found there and nothing else. -/
theorem find?_put (f : Folder) (place p : List String) (s : String) :
    ((f.put place s).entries.find? fun entry => entry.place = p)
      = if p = place then some ⟨place, .text s⟩
        else f.entries.find? fun entry => entry.place = p := by
  rw [put, List.find?_append]
  split_ifs with hp
  · subst hp
    have hnone : ((f.entries.filter fun entry => entry.place ≠ p).find? fun entry =>
        decide (entry.place = p)) = none :=
      List.find?_eq_none.mpr fun entry hentry => by simpa using (List.mem_filter.mp hentry).2
    rw [hnone, Option.none_or, List.find?_singleton, if_pos (decide_eq_true rfl)]
  · have hsame : ((f.entries.filter fun entry => entry.place ≠ place).find? fun entry =>
        decide (entry.place = p)) = f.entries.find? fun entry => decide (entry.place = p) := by
      rw [List.find?_filter]
      congr 1
      funext entry
      by_cases hentry : entry.place = p <;> simp [hentry, hp]
    rw [hsame, List.find?_singleton, if_neg (by simpa using Ne.symm hp), Option.or_none]

theorem at?_put_self (f : Folder) (place : List String) (s : String) :
    (f.put place s).at? place = some (.text s) := by
  rw [at?_eq, find?_put, if_pos rfl]

/-- What is put into a folder lies on no new way. -/
theorem passes_put {name : String} (hparent : f.at? parent = some .folder)
    (hp : p ≠ parent ++ [name]) : (f.put (parent ++ [name]) s).passes p = f.passes p := by
  rw [Bool.eq_iff_iff, passes_iff]
  constructor
  · rintro (hhome | ⟨entry, hentry, hbelow⟩)
    · exact (f.passes_iff p).mpr (Or.inl hhome)
    · obtain hold | hnew := List.mem_append.mp hentry
      · exact (f.passes_iff p).mpr (Or.inr ⟨entry, List.mem_of_mem_filter hold, hbelow⟩)
      · -- What is on the way to the new file is on the way to its folder, which was there.
        cases List.mem_singleton.mp hnew
        exact passes_of_prefix hparent ((List.prefix_concat_iff.mp hbelow).resolve_left hp)
  · intro hpasses
    obtain hhome | ⟨entry, hentry, hbelow⟩ := (f.passes_iff p).mp hpasses
    · exact Or.inl hhome
    · by_cases hplace : entry.place = parent ++ [name]
      · exact Or.inr ⟨⟨parent ++ [name], .text s⟩,
          List.mem_append_right _ List.mem_cons_self, hplace ▸ hbelow⟩
      · exact Or.inr ⟨entry, List.mem_append_left _ (List.mem_filter.mpr ⟨hentry, by simpa⟩),
          hbelow⟩

/-- A text that is put into a folder leaves all other places as they are. -/
theorem at?_put_of_ne {name : String} (hparent : f.at? parent = some .folder)
    (hp : p ≠ parent ++ [name]) : (f.put (parent ++ [name]) s).at? p = f.at? p := by
  rw [at?_eq, at?_eq, find?_put, if_neg hp, passes_put hparent hp]

/-- A way through folders is the same where they are still folders. -/
theorem walk_of_folders {names : List String}
    (h : ∀ q, f.at? q = some .folder → after.at? q = some .folder)
    (hwalk : f.walk p names = .ok place) : after.walk p names = .ok place := by
  induction names generalizing p with
  | nil => exact hwalk
  | cons name names ih =>
    rw [walk] at hwalk ⊢
    split at hwalk
    case h_1 => cases hwalk
    case h_3 => cases hwalk
    case h_2 hfolder =>
      rw [h p hfolder]
      dsimp only
      split_ifs at hwalk ⊢
      · exact ih hwalk
      · exact ih hwalk
      · exact ih hwalk

/-- A folder is another one with a text written to a path: the path reads as the text, and all
places but the one it leads to are as they were. -/
structure Written (f : Folder) (path s : String) (after : Folder) : Prop where
  home : after.home = f.home
  load : after.load path = .ok s
  others : ∃ place, f.resolve path = .ok place ∧ after.at? place = some (.text s)
    ∧ ∀ p, p ≠ place → after.at? p = f.at? p

theorem written_of_store (h : f.store path s = .ok after) : f.Written path s after := by
  obtain ⟨place, htarget, rfl⟩ := exists_target_of_store h
  obtain ⟨names, last, hnames, hfile⟩ := htarget.named
  have hresolve := htarget.resolve
  have hwalk : f.walk (f.start path) (names ++ [last]) = .ok place := by
    rwa [resolve, hnames] at hresolve
  obtain ⟨parent, -, hplace⟩ := exists_of_bind_eq_ok ((walk_append _ _).symm.trans hwalk)
  obtain ⟨hparent, -, rfl⟩ := (walk_single hfile).mp hplace
  have hothers : ∀ p, p ≠ parent ++ [last] → (f.put (parent ++ [last]) s).at? p = f.at? p :=
    fun p hp => at?_put_of_ne hparent hp
  have hafter : (f.put (parent ++ [last]) s).resolve path = .ok (parent ++ [last]) := by
    rw [resolve, hnames]
    -- The way leads through folders, and the place that is written was none.
    refine walk_of_folders (f := f) (fun q hq => ?_) hwalk
    rw [hothers q fun heq => htarget.vacant (heq ▸ hq), hq]
  refine ⟨rfl, ?_, parent ++ [last], hresolve, at?_put_self f _ s, hothers⟩
  rw [load_eq, hafter]
  change textOf ((f.put (parent ++ [last]) s).at? (parent ++ [last])) = .ok s
  rw [at?_put_self]
  rfl

end Folder

end BattleOdds
