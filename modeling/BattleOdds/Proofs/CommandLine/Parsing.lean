import BattleOdds.Proofs.CommandLine.Grammar

/-!
# Reading options

Any list of words is a row of groups up to the first offence, if there is one. The groups are read
one by one, each on top of the options before it, and the offence is told. So the words that can be
read are exactly the rows of groups, and what is wrong with others is the leftmost offence.
-/
namespace BattleOdds

namespace ValueOption

theorem ofName?_name (option : ValueOption) : ofName? option.name = some option := by
  cases option <;> rfl

theorem ofName?_eq_some_iff {word : String} {option : ValueOption} :
    ofName? word = some option ↔ word = option.name := by
  constructor
  · intro h
    have hname := List.find?_some h
    exact (by simpa using hname : option.name = word).symm
  · rintro rfl
    exact ofName?_name option

theorem ofName?_eq_none_iff {word : String} :
    ofName? word = none ↔ ∀ option : ValueOption, word ≠ option.name := by
  simp [← ofName?_eq_some_iff, Option.eq_none_iff_forall_ne_some]

/-- The names of options begin with two dashes. -/
theorem ofName?_of_startsWith {word : String} (h : word.startsWith "--" = false) :
    ofName? word = none := by
  rw [ofName?_eq_none_iff]
  rintro option rfl
  rw [String.startsWith_string_eq_false_iff] at h
  cases option <;> exact absurd (by decide) h

end ValueOption

namespace Options

variable {o o' : Options} {groups : List WordGroup} {g : WordGroup} {words rest : List String}
  {message : String}

/-- What groups add to options that have been read: each value is the last one. -/
def extend (o : Options) (groups : List WordGroup) : Options where
  requestPath := (groups.filterMap WordGroup.request?).getLast?.or o.requestPath
  pricesPath := (groups.filterMap WordGroup.prices?).getLast?.or o.pricesPath
  configPath := (groups.filterMap WordGroup.config?).getLast?.or o.configPath
  seed := (groups.filterMap WordGroup.seed?).getLast?.or o.seed
  parallel := o.parallel || groups.contains .parallel
  workers := (groups.filterMap WordGroup.workers?).getLast?.or o.workers
  samplesCsv := (groups.filterMap WordGroup.samplesCsv?).getLast?.or o.samplesCsv

@[simp] theorem extend_nil (o : Options) : o.extend [] = o := by
  simp [extend]

theorem getLast?_cons_or {α : Type} (x : α) (xs : List α) (y : Option α) :
    (x :: xs).getLast?.or y = xs.getLast?.or (some x) := by
  cases h : xs.getLast? <;> simp [List.getLast?_cons, h]

theorem extend_cons (o : Options) (g : WordGroup) (groups : List WordGroup) :
    o.extend (g :: groups) = (o.extend [g]).extend groups := by
  cases g <;> simp [extend, getLast?_cons_or]

theorem read_option (o : Options) (option : ValueOption) (value : String) (rest : List String) :
    o.read (option.name :: value :: rest) = (o.set option value).bind (·.read rest) := by
  rw [read, ValueOption.ofName?_name]
  rfl

theorem read_word (o : Options) {w : String} (h : ValueOption.ofName? w = none)
    (rest : List String) : o.read (w :: rest) = (o.word w).bind (·.read rest) := by
  rw [read, h]
  rfl

/-- Groups that may come next. -/
structure Admits (o : Options) (groups : List WordGroup) : Prop where
  wellFormed : ∀ g ∈ groups, g.WellFormed
  requests_le : (groups.filterMap WordGroup.request?).length + o.requestPath.toList.length ≤ 1

theorem admits_nil (o : Options) : o.Admits [] :=
  ⟨by simp, by cases o.requestPath <;> simp⟩

theorem length_requestPath_extend (o : Options) (g : WordGroup) :
    (o.extend [g]).requestPath.toList.length
      = if g.request?.isSome then 1 else o.requestPath.toList.length := by
  cases g <;> simp [extend]

theorem length_filterMap_request? (g : WordGroup) (groups : List WordGroup) :
    ((g :: groups).filterMap WordGroup.request?).length
      = (if g.request?.isSome then 1 else 0) + (groups.filterMap WordGroup.request?).length := by
  cases g <;> simp [List.filterMap_cons, Nat.add_comm]

/-- A first group counts among the options for those that follow. -/
theorem admits_cons : o.Admits (g :: groups) ↔ o.Admits [g] ∧ (o.extend [g]).Admits groups := by
  have hfirst := length_filterMap_request? g []
  have hall := length_filterMap_request? g groups
  have hpath := length_requestPath_extend o g
  constructor
  · rintro ⟨hwell, hrequests⟩
    obtain ⟨hg, hgroups⟩ := List.forall_mem_cons.mp hwell
    refine ⟨⟨by simpa using hg, ?_⟩, ⟨hgroups, ?_⟩⟩
    · rw [hfirst, List.filterMap_nil, List.length_nil]
      omega
    · rw [hpath]
      split_ifs at * <;> omega
  · rintro ⟨⟨hg, hrequest⟩, ⟨hgroups, hrequests⟩⟩
    refine ⟨List.forall_mem_cons.mpr ⟨by simpa using hg, hgroups⟩, ?_⟩
    rw [hfirst, List.filterMap_nil, List.length_nil] at hrequest
    rw [hpath] at hrequests
    split_ifs at * <;> omega

/-- A group that may come next is read on top of the options so far. -/
theorem read_words (h : o.Admits [g]) (rest : List String) :
    o.read (g.words ++ rest) = (o.extend [g]).read rest := by
  have hset (option : ValueOption) {value : String}
      (hvalue : o.set option value = .ok (o.extend [g])) :
      o.read (option.name :: value :: rest) = (o.extend [g]).read rest := by
    rw [read_option, hvalue]
    rfl
  have hword {w : String} (hname : ValueOption.ofName? w = none)
      (hw : o.word w = .ok (o.extend [g])) : o.read (w :: rest) = (o.extend [g]).read rest := by
    rw [read_word o hname, hw]
    rfl
  obtain ⟨hwell, hrequests⟩ := h
  have hg : g.WellFormed := hwell g (by simp)
  cases g with
  | prices path => exact hset .prices (by simp [set, extend])
  | config path => exact hset .config (by simp [set, extend])
  | samplesCsv path => exact hset .samplesCsv (by simp [set, extend])
  | seed word n => exact hset .seed (by simp [set, extend, wordNumber?_eq_some_iff.mpr hg])
  | workers word n => exact hset .workers (by simp [set, extend, wordNumber?_eq_some_iff.mpr hg])
  | parallel => exact hword (by decide) (by simp [word, extend])
  | request path =>
    have hdash : path.startsWith "--" = false := hg
    have hparallel : path ≠ "--parallel" := by
      rintro rfl
      simp at hdash
    have hnone : o.requestPath = none := by
      cases hpath : o.requestPath <;> simp_all
    refine hword (ValueOption.ofName?_of_startsWith hdash) ?_
    simp [word, extend, hdash, hparallel, hnone]

/-- Groups are read one by one. -/
theorem read_flatMap_words (h : o.Admits groups) (rest : List String) :
    o.read (groups.flatMap WordGroup.words ++ rest) = (o.extend groups).read rest := by
  induction groups generalizing o with
  | nil => simp
  | cons g groups ih =>
    obtain ⟨hg, hgroups⟩ := admits_cons.mp h
    rw [List.flatMap_cons, List.append_assoc, read_words hg, ih hgroups, ← extend_cons]

theorem read_of_offends (h : Offends (o.requestPath.isSome = true) words message) :
    ∃ e, o.read words = .error e ∧ e.message = message := by
  cases h with
  | missingValue option =>
    refine ⟨.missingValue option, ?_, rfl⟩
    rw [read, ValueOption.ofName?_name]
  | invalidSeed word rest hword =>
    refine ⟨.invalidSeed word, ?_, rfl⟩
    have hread := read_option o .seed word rest
    rwa [set, wordNumber?_eq_none_iff.mpr hword] at hread
  | invalidWorkers word rest hword =>
    refine ⟨.invalidWorkers word, ?_, rfl⟩
    have hread := read_option o .workers word rest
    rwa [set, wordNumber?_eq_none_iff.mpr hword] at hread
  | unknownOption word rest hdash hvalue hparallel =>
    refine ⟨.unknownOption word, ?_, rfl⟩
    rw [read_word o (ValueOption.ofName?_eq_none_iff.mpr hvalue), Options.word, if_neg hparallel,
      if_pos hdash]
    rfl
  | unexpected word rest hdash hrequested =>
    refine ⟨.unexpected word, ?_, rfl⟩
    have hparallel : word ≠ "--parallel" := by
      rintro rfl
      simp at hdash
    rw [read_word o (ValueOption.ofName?_of_startsWith hdash), Options.word, if_neg hparallel,
      if_neg (by simp [hdash]), if_pos hrequested]
    rfl

theorem admits_of_request?_eq_none (hg : g.WellFormed) (h : g.request? = none) :
    o.Admits [g] := by
  refine ⟨by simpa using hg, ?_⟩
  rw [List.filterMap_cons_none h]
  cases o.requestPath <;> simp

/-- An option with the word after it is a group, or it is an offence. -/
theorem exists_group_or_offends_of_option (o : Options) (option : ValueOption) (value : String)
    (rest : List String) :
    (∃ g, o.Admits [g] ∧ g.words = [option.name, value])
      ∨ ∃ message,
        Offends (o.requestPath.isSome = true) (option.name :: value :: rest) message := by
  cases option with
  | prices => exact .inl ⟨.prices value, admits_of_request?_eq_none trivial rfl, rfl⟩
  | config => exact .inl ⟨.config value, admits_of_request?_eq_none trivial rfl, rfl⟩
  | samplesCsv => exact .inl ⟨.samplesCsv value, admits_of_request?_eq_none trivial rfl, rfl⟩
  | seed =>
    cases hn : wordNumber? value with
    | some n =>
      have hnumber := wordNumber?_eq_some_iff.mp hn
      exact .inl ⟨.seed value n, admits_of_request?_eq_none hnumber rfl, rfl⟩
    | none => exact .inr ⟨_, .invalidSeed value rest (wordNumber?_eq_none_iff.mp hn)⟩
  | workers =>
    cases hn : wordNumber? value with
    | some n =>
      have hnumber := wordNumber?_eq_some_iff.mp hn
      exact .inl ⟨.workers value n, admits_of_request?_eq_none hnumber rfl, rfl⟩
    | none => exact .inr ⟨_, .invalidWorkers value rest (wordNumber?_eq_none_iff.mp hn)⟩

/-- Words begin with a group that may come next, or with an offence. -/
theorem exists_group_or_offends (o : Options) (h : words ≠ []) :
    (∃ g rest, o.Admits [g] ∧ words = g.words ++ rest)
      ∨ ∃ message, Offends (o.requestPath.isSome = true) words message := by
  obtain ⟨w, rest, rfl⟩ := List.exists_cons_of_ne_nil h
  cases hname : ValueOption.ofName? w with
  | some option =>
    obtain rfl := ValueOption.ofName?_eq_some_iff.mp hname
    cases rest with
    | nil => exact .inr ⟨_, .missingValue option⟩
    | cons value rest =>
      refine (o.exists_group_or_offends_of_option option value rest).imp_left ?_
      rintro ⟨g, hg, hwords⟩
      exact ⟨g, rest, hg, by simp [hwords]⟩
  | none =>
    have hvalue := ValueOption.ofName?_eq_none_iff.mp hname
    by_cases hparallel : w = "--parallel"
    · exact .inl ⟨.parallel, rest, admits_of_request?_eq_none trivial rfl, by rw [hparallel]; rfl⟩
    cases hdash : w.startsWith "--" with
    | true => exact .inr ⟨_, .unknownOption w rest hdash hvalue hparallel⟩
    | false =>
      cases hpath : o.requestPath with
      | none =>
        have hg : o.Admits [.request w] := ⟨List.forall_mem_singleton.mpr hdash, by simp [hpath]⟩
        exact .inl ⟨.request w, rest, hg, rfl⟩
      | some path => exact .inr ⟨_, .unexpected w rest hdash (by simp)⟩

/-- All words are groups up to the first offence. -/
theorem exists_groups (o : Options) (words : List String) :
    ∃ groups rest, o.Admits groups ∧ words = groups.flatMap WordGroup.words ++ rest
      ∧ (rest = []
        ∨ ∃ message, Offends ((o.extend groups).requestPath.isSome = true) rest message) := by
  by_cases hwords : words = []
  · exact ⟨[], [], o.admits_nil, by simpa using hwords, .inl rfl⟩
  obtain ⟨g, rest, hg, rfl⟩ | ⟨message, hoffends⟩ := o.exists_group_or_offends hwords
  · have hlength : rest.length < (g.words ++ rest).length := by
      simpa using List.length_pos_iff.mpr g.words_ne_nil
    obtain ⟨groups, last, hgroups, rfl, hlast⟩ := (o.extend [g]).exists_groups rest
    refine ⟨g :: groups, last, admits_cons.mpr ⟨hg, hgroups⟩, by simp, ?_⟩
    rwa [extend_cons]
  · exact ⟨[], words, o.admits_nil, rfl, .inr ⟨message, by simpa using hoffends⟩⟩
termination_by words.length

theorem extend_empty (groups : List WordGroup) :
    ({} : Options).extend groups = ofGroups groups := by
  simp [extend, ofGroups]

theorem admits_empty : ({} : Options).Admits groups ↔ Sentence groups :=
  ⟨fun h => ⟨h.wellFormed, by simpa using h.requests_le⟩,
    fun h => ⟨h.wellFormed, by simpa using h.requests_le⟩⟩

theorem read_eq_ok_iff : o.read words = .ok o' ↔ ∃ groups, o.Admits groups
    ∧ words = groups.flatMap WordGroup.words ∧ o' = o.extend groups := by
  constructor
  · intro h
    obtain ⟨groups, rest, hgroups, rfl, rfl | ⟨message, hoffends⟩⟩ := o.exists_groups words
    · rw [read_flatMap_words hgroups] at h
      exact ⟨groups, hgroups, by simp, (Except.ok.inj h).symm⟩
    · obtain ⟨e, he, -⟩ := read_of_offends hoffends
      rw [read_flatMap_words hgroups, he] at h
      cases h
  · rintro ⟨groups, hgroups, rfl, rfl⟩
    have hread := read_flatMap_words hgroups []
    rwa [List.append_nil, read] at hread

theorem read_eq_error_iff : (∃ e, o.read words = .error e ∧ e.message = message)
    ↔ ∃ groups rest, o.Admits groups
      ∧ words = groups.flatMap WordGroup.words ++ rest
      ∧ Offends ((o.extend groups).requestPath.isSome = true) rest message := by
  constructor
  · rintro ⟨e, h, rfl⟩
    obtain ⟨groups, rest, hgroups, rfl, rfl | ⟨message, hoffends⟩⟩ := o.exists_groups words
    · rw [read_flatMap_words hgroups] at h
      cases h
    · obtain ⟨e', he', rfl⟩ := read_of_offends hoffends
      rw [read_flatMap_words hgroups, he'] at h
      cases h
      exact ⟨groups, rest, hgroups, rfl, hoffends⟩
  · rintro ⟨groups, rest, hgroups, rfl, hoffends⟩
    rw [read_flatMap_words hgroups]
    exact read_of_offends hoffends

end Options

/-- The grammar of a command line. Its words are read exactly if those after the first two make up
groups, of which only the request may not be repeated, and then each option is the last that is
given; else what is told is the first offence, in front of which everything is a group. So options
that are written out in groups, in whatever order, are read back. -/
theorem option_grammar (args : List String) :
    (∀ o, Options.ofArgs args = .ok o ↔ ∃ groups, Sentence groups
        ∧ args.drop 2 = groups.flatMap WordGroup.words ∧ o = Options.ofGroups groups)
    ∧ (∀ message, (∃ e, Options.ofArgs args = .error e ∧ e.message = message)
        ↔ ∃ groups rest, Sentence groups
          ∧ args.drop 2 = groups.flatMap WordGroup.words ++ rest
          ∧ Offends (∃ path, .request path ∈ groups) rest message)
    ∧ ∀ o : Options, (∀ path ∈ o.requestPath, path.startsWith "--" = false) →
        ∀ groups : List WordGroup, groups.Perm o.toGroups →
          args.drop 2 = groups.flatMap WordGroup.words → Options.ofArgs args = .ok o := by
  have hok (o : Options) : Options.ofArgs args = .ok o ↔ ∃ groups, Sentence groups
      ∧ args.drop 2 = groups.flatMap WordGroup.words ∧ o = Options.ofGroups groups := by
    simp only [Options.ofArgs, Options.read_eq_ok_iff, Options.admits_empty, Options.extend_empty]
  refine ⟨hok, fun message => ?_, fun o hpath groups hperm hwords => ?_⟩
  · simp only [Options.ofArgs, Options.read_eq_error_iff, Options.admits_empty,
      Options.extend_empty, Options.isSome_requestPath_ofGroups]
  · have hsentence := Options.sentence_of_perm hperm hpath
    exact (hok o).mpr ⟨groups, hsentence, hwords, (Options.ofGroups_of_perm hperm).symm⟩

/-- Options that are written from the last to the first; a value that looks like an option, and a
seed that another one replaces; and a second request. -/
theorem option_grammar_of_reversed :
    let o : Options := { requestPath := some "war.yaml", seed := some 8, parallel := true }
    let groups := o.toGroups.reverse
    (∀ path ∈ o.requestPath, path.startsWith "--" = false) ∧ groups.Perm o.toGroups
    ∧ groups.flatMap WordGroup.words = ["--parallel", "--seed", "8", "war.yaml"]
    ∧ Options.ofArgs ["warodds", "simulate", "--parallel", "--seed", "8", "war.yaml"] = .ok o
    ∧ Options.ofArgs ["warodds", "simulate", "--seed", "+7", "--prices", "--seed", "--seed", "8"]
      = .ok { pricesPath := some "--seed", seed := some 8 }
    ∧ ∃ e, Options.ofArgs ["warodds", "simulate", "war.yaml", "odds.yaml"] = .error e
      ∧ e.message = "unexpected argument 'odds.yaml'" := by
  intro o groups
  have hpath : ∀ path ∈ o.requestPath, path.startsWith "--" = false := by
    rintro path ⟨⟩
    simp
  have hperm : groups.Perm o.toGroups := List.reverse_perm _
  have hwords : groups.flatMap WordGroup.words = ["--parallel", "--seed", "8", "war.yaml"] := rfl
  obtain ⟨-, -, hwritten⟩ :=
    option_grammar ["warodds", "simulate", "--parallel", "--seed", "8", "war.yaml"]
  obtain ⟨hread, -⟩ := option_grammar
    ["warodds", "simulate", "--seed", "+7", "--prices", "--seed", "--seed", "8"]
  obtain ⟨-, hoffends, -⟩ := option_grammar ["warodds", "simulate", "war.yaml", "odds.yaml"]
  refine ⟨hpath, hperm, hwords, hwritten o hpath groups hperm hwords.symm, ?_, ?_⟩
  · refine (hread _).mpr ⟨[.seed "+7" 7, .prices "--seed", .seed "8" 8], ⟨?_, by decide⟩, rfl, rfl⟩
    have hplus : NamesNumber "+7" 7 := ⟨['7'], .inr rfl, by simp, by simp, rfl⟩
    have height : NamesNumber "8" 8 := ⟨['8'], .inl rfl, by simp, by simp, rfl⟩
    simpa [WordGroup.WellFormed] using ⟨hplus, height⟩
  · refine (hoffends _).mpr ⟨[.request "war.yaml"], ["odds.yaml"], ⟨?_, by simp⟩, rfl, ?_⟩
    · simp [WordGroup.WellFormed]
    · exact .unexpected "odds.yaml" [] (by simp) ⟨"war.yaml", by simp⟩

end BattleOdds
